import TsClient.Resend.Poll

/-!
The congestion clock of the resender. `get_window` feeds the cubic the time since the last loss,
up to the start of the current period without congestion if one is running (`elapsed`). The
resender keeps that time in two fields, `last_loss` and `no_congestion_since`.
`fill_up_send_queue` changes the fields but not the time (`fillUpSendQueue_elapsed`). Along a
run, the time therefore stays constant while a period without congestion lasts, never decreases
between two losses, and drops to zero exactly at a loss (`congestion_clock`).
-/

namespace TsClient.Resend

namespace Resender

/-- The time `get_window` feeds into the cubic at instant `now`, in nanoseconds. -/
def elapsed (s : Resender) (now : Int) : Nat := (s.noCongestionSince.getD now - s.lastLoss).toNat

theorem shiftLoss_elapsed (s : Resender) (now : Int) : (s.shiftLoss now).elapsed now = s.elapsed now := by
  unfold shiftLoss
  split
  · next since h =>
    simp only [elapsed, h, Option.getD_none, Option.getD_some]
    omega
  · rfl

theorem fillLoop_elapsed (now : Int) :
    ∀ n iters (s : Resender), (fillLoop now n iters s).1.elapsed now = s.elapsed now
  | 0, _, s => shiftLoss_elapsed s now
  | n + 1, iters, s => by
    unfold fillLoop
    split
    · rfl
    split
    · rfl
    · exact fillLoop_elapsed now n _ _

/-- `fill_up_send_queue` keeps the time, when it starts a period without congestion or ends one. -/
theorem fillUpSendQueue_elapsed (cubic : Cubic) (s : Resender) (now : Int) :
    (s.fillUpSendQueue cubic now).1.elapsed now = s.elapsed now :=
  fillLoop_elapsed now _ _ _

theorem rebuildSendQueue_elapsed (cubic : Cubic) (s : Resender) (now : Int) :
    (s.rebuildSendQueue cubic now).1.elapsed now = s.elapsed now :=
  fillLoop_elapsed now _ _ _

@[simp] theorem recordLoss_elapsed (cubic : Cubic) (s : Resender) (now : Int) :
    (s.recordLoss cubic now).elapsed now = 0 := by
  simp [recordLoss, elapsed]

theorem elapsed_later {s s' : Resender} {t now : Int} (ht : t ≤ now)
    (h : s'.elapsed now = s.elapsed now) :
    s.elapsed t ≤ s'.elapsed now ∧ (s.noCongestionSince.isSome → s'.elapsed now = s.elapsed t) := by
  rw [h]
  unfold elapsed
  cases s.noCongestionSince <;> simp
  omega

end Resender

def Run.elapsed (r : Run) : Nat := r.con.resender.elapsed r.clock

/-- A step records a loss and restarts the time at zero, or leaves it where it was or later. -/
theorem Step.elapsed {cubic : Cubic} {r r' : Run} (hs : Step cubic r r') :
    (r'.losses = r.losses + 1 ∧ r'.elapsed = 0) ∨
      (r'.losses = r.losses ∧ r.elapsed ≤ r'.elapsed ∧
        (r.con.resender.noCongestionSince.isSome → r'.elapsed = r.elapsed)) := by
  cases hs with
  | send p now hclock _ hsend =>
    obtain ⟨i, -, rfl⟩ := Resender.sendPacket_ok hsend
    exact .inr ⟨rfl, Resender.elapsed_later hclock (Resender.fillUpSendQueue_elapsed _ _ _)⟩
  | ack _ _ now hclock hack =>
    obtain ⟨i, k, config, hc⟩ := Connection.ackPacket_resender hack
    refine .inr ⟨rfl, Resender.elapsed_later hclock ?_⟩
    rw [hc]
    rfl
  | poll now top sock timerReady hclock _ hp =>
    rcases Resender.pollPass_ok hp with ⟨hr, -, hl⟩ | ⟨x, i, -, -, -, hr, -, hl⟩ |
      ⟨x, i, r, -, -, -, -, -, ⟨-, hr, hl⟩ | ⟨-, hl, hr⟩⟩
    · exact .inr ⟨by simp [hl], Resender.elapsed_later hclock (by rw [hr])⟩
    · exact .inr ⟨by simp [hl], Resender.elapsed_later hclock
        (by rw [hr, Resender.fillUpSendQueue_elapsed]; rfl)⟩
    · exact .inr ⟨by simp [hl], Resender.elapsed_later hclock (by rw [hr]; rfl)⟩
    · refine .inl ⟨by simp [hl], ?_⟩
      show Resender.elapsed _ now = 0
      rw [hr, Resender.rebuildSendQueue_elapsed, Resender.recordLoss_elapsed]

theorem Step.losses_le {cubic : Cubic} {r r' : Run} (hs : Step cubic r r') : r.losses ≤ r'.losses := by
  rcases hs.elapsed with ⟨h, -⟩ | ⟨h, -⟩ <;> omega

/-- `fill_up_send_queue` keeps `get_window`'s time; along a run it restarts at zero at a loss, stays
while a period without congestion runs, and never decreases between two losses. -/
theorem congestion_clock (cubic : Cubic) :
    (∀ s now, (Resender.fillUpSendQueue cubic s now).1.elapsed now = s.elapsed now) ∧
    (∀ r r', Step cubic r r' →
      (r'.losses = r.losses + 1 ∧ r'.elapsed = 0) ∨
      (r'.losses = r.losses ∧ r.elapsed ≤ r'.elapsed ∧
        (r.con.resender.noCongestionSince.isSome → r'.elapsed = r.elapsed))) ∧
    ∀ r r', Relation.ReflTransGen (Step cubic) r r' → r'.losses = r.losses →
      r.elapsed ≤ r'.elapsed := by
  refine ⟨Resender.fillUpSendQueue_elapsed cubic, fun _ _ hs => hs.elapsed, fun r r' h hl => ?_⟩
  induction h with
  | refl => exact Nat.le_refl _
  | @tail b c hrb hs ih =>
    have hmono : r.losses ≤ b.losses :=
      Relation.ReflTransGen.head_induction_on hrb (Nat.le_refl _)
        fun hs' _ h => Nat.le_trans hs'.losses_le h
    rcases hs.elapsed with ⟨hl', -⟩ | ⟨hl', hle, -⟩
    · omega
    · exact Nat.le_trans (ih (by omega)) hle

end TsClient.Resend
