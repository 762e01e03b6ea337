import TsClient.Resend.Poll
import Mathlib.Algebra.Order.Field.Rat
import Mathlib.Tactic.Linarith

/-!
The round-trip estimate. `ack_packet` feeds `update_srtt` the round trip of a record it
removes when that record was sent once; a pass of `poll_resend` that records a loss doubles
`srtt`; nothing else changes it. One update shrinks the error `srtt - rtt` by `7/8`, and the two
floor divisions by 8 lose less than two nanoseconds (`updateSrtt_error`). So after `n` updates
on the same round trip `R`, with no loss between them, `srtt` is within
`(7/8)^n·|srtt₀ - R| + 16` nanoseconds of `R` (`srtt_converges`).
-/

namespace TsClient.Resend

namespace Resender

@[simp] theorem updateSrtt_srtt (s : Resender) (rtt : Nat) :
    (s.updateSrtt rtt).config.srtt = s.config.srtt * 7 / 8 + rtt / 8 := rfl

/-- One update takes the error `e = srtt - rtt` to `e'` with `7e - 16 < 8e' ≤ 7e`. -/
theorem updateSrtt_error (s : Resender) (rtt : Nat) :
    7 * ((s.config.srtt : Int) - rtt) - 16 < 8 * (((s.updateSrtt rtt).config.srtt : Int) - rtt) ∧
      8 * (((s.updateSrtt rtt).config.srtt : Int) - rtt) ≤ 7 * ((s.config.srtt : Int) - rtt) := by
  rw [updateSrtt_srtt]
  omega

end Resender

/-! ### The error after `n` updates -/

section Error

variable {e e' e₀ x : ℚ}

theorem error_bounds_succ (h₁ : 7 * e - 16 < 8 * e') (h₂ : 8 * e' ≤ 7 * e)
    (hlo : x * e₀ - 16 + 16 * x ≤ e) (hhi : e ≤ x * e₀) :
    7 / 8 * x * e₀ - 16 + 16 * (7 / 8 * x) ≤ e' ∧ e' ≤ 7 / 8 * x * e₀ := by
  constructor <;> linarith

theorem abs_le_of_error_bounds (hx : 0 ≤ x) (hlo : x * e₀ - 16 + 16 * x ≤ e) (hhi : e ≤ x * e₀) :
    |e| ≤ x * |e₀| + 16 := by
  have h₁ : x * e₀ ≤ x * |e₀| := mul_le_mul_of_nonneg_left (le_abs_self e₀) hx
  have h₂ : x * -|e₀| ≤ x * e₀ := mul_le_mul_of_nonneg_left (neg_abs_le e₀) hx
  rw [abs_le]
  constructor <;> linarith

theorem updateSrtt_error_bounds (s : Resender) (rtt : Nat)
    (hlo : x * e₀ - 16 + 16 * x ≤ (s.config.srtt : ℚ) - rtt) (hhi : (s.config.srtt : ℚ) - rtt ≤ x * e₀) :
    7 / 8 * x * e₀ - 16 + 16 * (7 / 8 * x) ≤ ((s.updateSrtt rtt).config.srtt : ℚ) - rtt ∧
      ((s.updateSrtt rtt).config.srtt : ℚ) - rtt ≤ 7 / 8 * x * e₀ := by
  obtain ⟨h₁, h₂⟩ := s.updateSrtt_error rtt
  exact error_bounds_succ (by exact_mod_cast h₁) (by exact_mod_cast h₂) hlo hhi

end Error

/-- `n` updates of the estimate on the round trip `R`. -/
theorem iterate_updateSrtt_bounds (R : Nat) :
    ∀ (n : Nat) (s : Resender),
      (7 / 8 : ℚ) ^ n * ((s.config.srtt : ℚ) - R) - 16 + 16 * (7 / 8) ^ n ≤
          (((fun s => Resender.updateSrtt s R)^[n] s).config.srtt : ℚ) - R ∧
        (((fun s => Resender.updateSrtt s R)^[n] s).config.srtt : ℚ) - R ≤
          (7 / 8 : ℚ) ^ n * ((s.config.srtt : ℚ) - R)
  | 0, s => by simp
  | n + 1, s => by
    obtain ⟨hlo, hhi⟩ := iterate_updateSrtt_bounds R n s
    rw [Function.iterate_succ_apply', pow_succ, mul_comm _ (7 / 8 : ℚ)]
    exact updateSrtt_error_bounds _ R hlo hhi

/-! ### Along a run -/

theorem Store.not_mem_keys_erase (s : Store) (k : PartialPacketId) : k ∉ (s.erase k).keys := by
  simp [Store.keys, Store.erase]

theorem Connection.removeAcked_config_of_keys {con : Connection} {i : Fin 3} {k : PartialPacketId}
    {now : Int} (hk : (con.resender.fullSendQueue i).keys ⊆
      ((con.removeAcked i k now).resender.fullSendQueue i).keys) :
    (con.removeAcked i k now).resender.config = con.resender.config := by
  cases hget : (con.resender.fullSendQueue i).get k with
  | none => simp [Connection.removeAcked, Store.remove, hget]
  | some record =>
    have hmem : k ∈ (con.resender.fullSendQueue i).keys :=
      List.mem_map_of_mem Prod.fst (Store.get_eq_some.mp hget)
    have := hk hmem
    rw [Connection.removeAcked_fullSendQueue, Function.update_same] at this
    exact absurd this (Store.not_mem_keys_erase _ k)

theorem Connection.removeAcked_srtt_of_once {con : Connection} {i : Fin 3} {k : PartialPacketId}
    {rec : SendRecord} (hget : (con.resender.fullSendQueue i).get k = some rec)
    (honce : rec.id.tries = 1) (now : Int) :
    (con.removeAcked i k now).resender.config.srtt =
      (con.resender.updateSrtt (now - rec.sent).toNat).config.srtt := by
  simp [Connection.removeAcked, Store.remove, hget, honce, Resender.updateSrtt]

theorem Step.srtt_of_keep {cubic : Cubic} {r r' : Run} (hs : Step cubic r r')
    (hl : r'.losses = r.losses)
    (hk : ∀ j, (r.con.resender.fullSendQueue j).keys ⊆ (r'.con.resender.fullSendQueue j).keys) :
    r'.con.resender.config.srtt = r.con.resender.config.srtt := by
  cases hs with
  | send p now _ _ hsend =>
    obtain ⟨i, -, rfl⟩ := Resender.sendPacket_ok hsend
    simp
  | ack pType pId now _ hack =>
    obtain ⟨i, -, ⟨k, rfl⟩ | ⟨first, r₁, rest, next, -, -, -, rfl⟩⟩ := Connection.ackPacket_ok hack
    · exact congrArg ResendConfig.srtt (Connection.removeAcked_config_of_keys (hk i))
    · exact congrArg ResendConfig.srtt (Connection.removeAcked_config_of_keys (hk i))
  | @poll now top sock timerReady p _ _ hp =>
    have hloss : p.loss = false := by simpa using hl
    rcases Resender.pollPass_ok hp with ⟨hr, -, -⟩ | ⟨-, -, -, -, -, hr, -, -⟩ |
      ⟨x, i, rec, -, -, -, -, -, ⟨-, hr, -⟩ | ⟨-, hl', -⟩⟩
    · exact congrArg (·.config.srtt) hr
    · show _ = _
      simp [hr]
    · show _ = _
      simp [hr]
    · exact absurd (hl'.symm.trans hloss) Bool.noConfusion

/-- Run segments without losses whose steps remove no record, or, as `ack_packet` does, a record
sent once `R` nanoseconds before; `n` counts the latter. -/
inductive SampledRun (cubic : Cubic) (R : Nat) : Nat → Run → Run → Prop
  | refl (r : Run) : SampledRun cubic R 0 r r
  | keep {n : Nat} {r r₁ r₂ : Run} : SampledRun cubic R n r r₁ → Step cubic r₁ r₂ →
      r₂.losses = r₁.losses →
      (∀ j, (r₁.con.resender.fullSendQueue j).keys ⊆ (r₂.con.resender.fullSendQueue j).keys) →
      SampledRun cubic R n r r₂
  | sample {n : Nat} {r r₁ r₂ : Run} {c : Connection} {i : Fin 3} {k : PartialPacketId}
      {rec : SendRecord} : SampledRun cubic R n r r₁ → Step cubic r₁ r₂ →
      c.resender = r₁.con.resender → r₂.con = c.removeAcked i k r₂.clock →
      (r₁.con.resender.fullSendQueue i).get k = some rec → rec.id.tries = 1 →
      (r₂.clock - rec.sent).toNat = R → SampledRun cubic R (n + 1) r r₂

theorem SampledRun.error_bounds {cubic : Cubic} {R n : Nat} {r r' : Run}
    (h : SampledRun cubic R n r r') :
    (7 / 8 : ℚ) ^ n * ((r.con.resender.config.srtt : ℚ) - R) - 16 + 16 * (7 / 8) ^ n ≤
        (r'.con.resender.config.srtt : ℚ) - R ∧
      (r'.con.resender.config.srtt : ℚ) - R ≤ (7 / 8 : ℚ) ^ n * ((r.con.resender.config.srtt : ℚ) - R) := by
  induction h with
  | refl => simp
  | keep _ hs hl hk ih =>
    rw [hs.srtt_of_keep hl hk]
    exact ih
  | @sample n r r₁ r₂ c i k rec _ _ hc hcon hget honce hR ih =>
    rw [hcon, Connection.removeAcked_srtt_of_once (hc ▸ hget) honce, hc, hR, pow_succ,
      mul_comm _ (7 / 8 : ℚ)]
    exact updateSrtt_error_bounds _ R ih.1 ih.2

/-- `n` samples of the round trip `R` leave `srtt` within `(7/8)^n·|srtt₀ - R| + 16` nanoseconds
of `R`, after `update_srtt` alone and over every such run segment. -/
theorem srtt_converges (cubic : Cubic) (R : Nat) :
    (∀ (s : Resender) (n : Nat),
      |(((fun s => Resender.updateSrtt s R)^[n] s).config.srtt : ℚ) - R| ≤
        (7 / 8) ^ n * |(s.config.srtt : ℚ) - R| + 16) ∧
    ∀ n r r', SampledRun cubic R n r r' →
      |(r'.con.resender.config.srtt : ℚ) - R| ≤
        (7 / 8) ^ n * |(r.con.resender.config.srtt : ℚ) - R| + 16 :=
  ⟨fun s n => abs_le_of_error_bounds (by positivity) (iterate_updateSrtt_bounds R n s).1
      (iterate_updateSrtt_bounds R n s).2,
    fun _ _ _ h => abs_le_of_error_bounds (by positivity) h.error_bounds.1 h.error_bounds.2⟩

/-- A connection whose resender holds the `Command` packet 0, sent once at instant 0. -/
def onceSent : Run :=
  { Run.init 50 0 with
    con := { (Run.init 50 0).con with
      resender := { Resender.default 50 0 with
        fullSendQueue := Function.update (fun _ => Store.empty) 1
          (Store.empty.insert .zero ⟨0, ⟨0, 1, ⟨.command, .zero⟩⟩⟩) } } }

def onceAcked : Run :=
  { onceSent with
    con := { onceSent.con with
      ackPackets := [⟨.command, PartialPacketId.zero.sub 1⟩] }.removeAcked 1 .zero 100
    clock := 100 }

theorem srtt_converges_onceAcked :
    SampledRun (fun _ _ => 1) 100 1 onceSent onceAcked ∧
      |(onceAcked.con.resender.config.srtt : ℚ) - 100| ≤
        (7 / 8) ^ 1 * |(onceSent.con.resender.config.srtt : ℚ) - 100| + 16 :=
  have h : SampledRun (fun _ _ => 1) 100 1 onceSent onceAcked :=
    @SampledRun.sample _ _ 0 onceSent onceSent onceAcked
      { onceSent.con with ackPackets := [⟨.command, PartialPacketId.zero.sub 1⟩] } 1 .zero
      ⟨0, ⟨0, 1, ⟨.command, .zero⟩⟩⟩ (.refl _)
      (.ack .command 0 100 (by decide) (@Connection.ackPacket_of_eq onceSent.con .command 1 .zero
        ⟨0, ⟨0, 1, ⟨.command, .zero⟩⟩⟩ [] .zero rfl rfl rfl 100))
      rfl rfl (by decide) rfl rfl
  ⟨h, (srtt_converges (fun _ _ => 1) 100).2 1 _ _ h⟩

end TsClient.Resend
