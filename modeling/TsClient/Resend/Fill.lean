import TsClient.Resend.State

/-!
`fill_up_send_queue` and `rebuild_send_queue`: the schedule is refilled up to the congestion
window from three iterators, one per packet type, each over the records at or above its cursor.
Each pass of the `for` loop takes the next record of the iterator chosen by the `max_i` loop,
moves that type's cursor past it and pushes it. When every iterator is exhausted the loop
returns early and notes that the window was not full; when the window fills, a period without
congestion ends and `last_loss` is moved forward by its length.

The `max_i` loop keeps the iterator whose next record was sent *last* (`pickNext_spec`), so the
loop first pushes the newest record waiting (`fillLoop_head`) and the schedule is refilled
newest-first (`fillUpSendQueue_takes_latest`).
-/

namespace TsClient.Resend

namespace Resender

/-- A turn of the `max_i` loop: take iterator `i` when its next record was sent after `min_time`. -/
def pickStep (iters : Fin 3 → List SendRecord) (acc : Option (Fin 3) × Option Int) (i : Fin 3) :
    Option (Fin 3) × Option Int :=
  match (iters i).head? with
  | some rec => if (acc.2.map fun t => decide (t < rec.sent)).getD true then (some i, some rec.sent)
    else acc
  | none => acc

def pickNext (iters : Fin 3 → List SendRecord) : Option (Fin 3) :=
  (([0, 1, 2] : List (Fin 3)).foldl (pickStep iters) (none, none)).1

def shiftLoss (s : Resender) (now : Int) : Resender :=
  match s.noCongestionSince with
  | some since => { s with lastLoss := now - (since - s.lastLoss).toNat, noCongestionSince := none }
  | none => s

/-- The `for` loop of `fill_up_send_queue` over `n` more slots: the records pushed, in order. -/
def fillLoop (now : Int) : Nat → (Fin 3 → List SendRecord) → Resender → Resender × List SendRecordId
  | 0, _, s => (s.shiftLoss now, [])
  | n + 1, iters, s =>
    match pickNext iters with
    | none => ({ s with noCongestionSince := some (s.noCongestionSince.getD now) }, [])
    | some i =>
      match iters i with
      | [] => (s, [])
      | rec :: rest =>
        let r := fillLoop now n (Function.update iters i rest)
          { s with
            sendQueueIndices := Function.update s.sendQueueIndices i (rec.id.id.part.add 1)
            sendQueue := s.sendQueue ++ [rec.id] }
        (r.1, rec.id :: r.2)

/-- The iterator over the records of type `i` from its cursor on (`skip_while`). -/
def unscheduled (s : Resender) (i : Fin 3) : List SendRecord :=
  (s.fullSendQueue i).values.dropWhile fun r => r.id.id.part < s.sendQueueIndices i

def fillUpSendQueue (cubic : Cubic) (s : Resender) (now : Int) : Resender × List SendRecordId :=
  fillLoop now ((s.getWindow cubic now).toNat - s.sendQueue.length) s.unscheduled s

def rebuildSendQueue (cubic : Cubic) (s : Resender) (now : Int) : Resender × List SendRecordId :=
  fillUpSendQueue cubic { s with sendQueue := [], sendQueueIndices := fun _ => .zero } now

/-! ### What the `max_i` loop picks -/

def PickInv (iters : Fin 3 → List SendRecord) (seen : List (Fin 3)) :
    Option (Fin 3) × Option Int → Prop
  | (none, t) => t = none ∧ ∀ j ∈ seen, iters j = []
  | (some i, t) => ∃ rec rest, iters i = rec :: rest ∧ t = some rec.sent ∧
      ∀ j ∈ seen, ∀ r ∈ (iters j).head?, r.sent ≤ rec.sent

theorem pickStep_inv {iters : Fin 3 → List SendRecord} {seen : List (Fin 3)} {acc} (i : Fin 3)
    (h : PickInv iters seen acc) : PickInv iters (seen ++ [i]) (pickStep iters acc i) := by
  obtain ⟨_ | k, t⟩ := acc
  · obtain ⟨rfl, hseen⟩ := h
    cases hi : iters i with
    | nil =>
      simp only [pickStep, hi, List.head?_nil]
      exact ⟨rfl, List.forall_mem_append.mpr ⟨hseen, List.forall_mem_singleton.mpr hi⟩⟩
    | cons rec rest =>
      simp only [pickStep, hi, List.head?_cons, Option.map_none', Option.getD_none, if_true]
      refine ⟨rec, rest, hi, rfl, List.forall_mem_append.mpr ⟨fun j hj r hr => ?_, by simp [hi]⟩⟩
      simp [hseen j hj] at hr
  · obtain ⟨best, rest₀, hk, rfl, hseen⟩ := h
    cases hi : iters i with
    | nil =>
      simp only [pickStep, hi, List.head?_nil]
      exact ⟨best, rest₀, hk, rfl, List.forall_mem_append.mpr ⟨hseen, by simp [hi]⟩⟩
    | cons rec rest =>
      simp only [pickStep, hi, List.head?_cons, Option.map_some', Option.getD_some,
        decide_eq_true_eq]
      split_ifs with hlt
      · exact ⟨rec, rest, hi, rfl, List.forall_mem_append.mpr
          ⟨fun j hj r hr => Int.le_trans (hseen j hj r hr) (Int.le_of_lt hlt), by simp [hi]⟩⟩
      · exact ⟨best, rest₀, hk, rfl, List.forall_mem_append.mpr
          ⟨hseen, by simpa [hi] using Int.not_lt.mp hlt⟩⟩

theorem foldl_pickStep_inv {iters : Fin 3 → List SendRecord} :
    ∀ (l seen : List (Fin 3)) acc, PickInv iters seen acc →
      PickInv iters (seen ++ l) (l.foldl (pickStep iters) acc)
  | [], seen, _, h => by simpa using h
  | i :: l, seen, _, h => by
    simpa using foldl_pickStep_inv l (seen ++ [i]) _ (pickStep_inv i h)

/-- The `max_i` loop picks an iterator whose next record was sent last, if any has one. -/
theorem pickNext_spec (iters : Fin 3 → List SendRecord) :
    match pickNext iters with
    | none => ∀ j, iters j = []
    | some i => ∃ rec rest, iters i = rec :: rest ∧
        ∀ j, ∀ r ∈ (iters j).head?, r.sent ≤ rec.sent := by
  have h := @foldl_pickStep_inv iters [0, 1, 2] [] (none, none) ⟨rfl, by simp⟩
  have hall : ∀ j : Fin 3, j ∈ ([] ++ [0, 1, 2] : List (Fin 3)) := by decide
  unfold pickNext
  generalize ([0, 1, 2] : List (Fin 3)).foldl (pickStep iters) (none, none) = acc at h
  obtain ⟨_ | i, t⟩ := acc
  · exact fun j => h.2 j (hall j)
  · obtain ⟨rec, rest, hi, -, hmax⟩ := h
    exact ⟨rec, rest, hi, fun j => hmax j (hall j)⟩

/-! ### The loop's frame -/

theorem fillLoop_frame (now : Int) :
    ∀ n iters (s : Resender), ∃ q idx ll ncs, (fillLoop now n iters s).1 =
      { s with sendQueue := q, sendQueueIndices := idx, lastLoss := ll, noCongestionSince := ncs }
  | 0, _, s => by
    simp only [fillLoop, shiftLoss]
    split
    · exact ⟨_, _, _, _, rfl⟩
    · exact ⟨_, _, _, _, rfl⟩
  | n + 1, iters, s => by
    simp only [fillLoop]
    split
    · exact ⟨_, _, _, _, rfl⟩
    · split
      · exact ⟨_, _, _, _, rfl⟩
      · obtain ⟨q, idx, ll, ncs, h⟩ := fillLoop_frame now n _ _
        exact ⟨q, idx, ll, ncs, h⟩

theorem fillUpSendQueue_frame (cubic : Cubic) (s : Resender) (now : Int) :
    ∃ q idx ll ncs, (s.fillUpSendQueue cubic now).1 =
      { s with sendQueue := q, sendQueueIndices := idx, lastLoss := ll, noCongestionSince := ncs } :=
  fillLoop_frame now _ _ _

@[simp] theorem fillUpSendQueue_fullSendQueue (cubic : Cubic) (s : Resender) (now : Int) :
    (s.fillUpSendQueue cubic now).1.fullSendQueue = s.fullSendQueue := by
  obtain ⟨q, idx, ll, ncs, h⟩ := s.fillUpSendQueue_frame cubic now
  rw [h]

@[simp] theorem fillUpSendQueue_config (cubic : Cubic) (s : Resender) (now : Int) :
    (s.fillUpSendQueue cubic now).1.config = s.config := by
  obtain ⟨q, idx, ll, ncs, h⟩ := s.fillUpSendQueue_frame cubic now
  rw [h]

@[simp] theorem rebuildSendQueue_fullSendQueue (cubic : Cubic) (s : Resender) (now : Int) :
    (s.rebuildSendQueue cubic now).1.fullSendQueue = s.fullSendQueue :=
  fillUpSendQueue_fullSendQueue _ _ _

theorem fillUpSendQueue_of_nil {s : Resender} (h : s.sendQueue = []) (cubic : Cubic) (now : Int) :
    ∃ m, s.fillUpSendQueue cubic now = fillLoop now (m + 1) s.unscheduled s :=
  ⟨(s.getWindow cubic now).toNat - 1, by
    rw [fillUpSendQueue, h, List.length_nil, Nat.sub_zero,
      Nat.sub_add_cancel (one_le_getWindow cubic s now)]⟩

/-! ### Newest first -/

/-- With a slot left and a record waiting, the loop first pushes the next record of an iterator
that no other iterator's next record was sent after. -/
theorem fillLoop_head (now : Int) (n : Nat) {iters : Fin 3 → List SendRecord} (s : Resender)
    (hne : ∃ j, iters j ≠ []) :
    ∃ i rec rest, iters i = rec :: rest ∧ (fillLoop now (n + 1) iters s).2.head? = some rec.id ∧
      ∀ j, ∀ r ∈ (iters j).head?, r.sent ≤ rec.sent := by
  have hspec := pickNext_spec iters
  simp only [fillLoop]
  split
  next hnone =>
    rw [hnone] at hspec
    obtain ⟨j, hj⟩ := hne
    exact absurd (hspec j) hj
  next i hi =>
    rw [hi] at hspec
    obtain ⟨rec, rest, hrec, hmax⟩ := hspec
    rw [hrec]
    exact ⟨i, rec, rest, hrec, rfl, hmax⟩

/-- A `Command` sent at instant 1 and a `CommandLow` sent at instant 2 wait to be scheduled. -/
def twoWaiting : Resender :=
  { Resender.default 50 0 with
    fullSendQueue := fun i => match i with
      | 1 => ⟨[(.zero, ⟨1, ⟨1, 0, ⟨.command, .zero⟩⟩⟩)], List.pairwise_singleton _ _⟩
      | 2 => ⟨[(.zero, ⟨2, ⟨2, 0, ⟨.commandLow, .zero⟩⟩⟩)], List.pairwise_singleton _ _⟩
      | _ => Store.empty }

/-- `fill_up_send_queue` pushes the `CommandLow` packet first, though the `Command` one was
sent before it. -/
theorem fillUpSendQueue_takes_latest (cubic : Cubic) (now : Int) :
    twoWaiting.unscheduled 1 = [⟨1, ⟨1, 0, ⟨.command, .zero⟩⟩⟩] ∧
      twoWaiting.unscheduled 2 = [⟨2, ⟨2, 0, ⟨.commandLow, .zero⟩⟩⟩] ∧
      (twoWaiting.fillUpSendQueue cubic now).2.head? = some ⟨2, 0, ⟨.commandLow, .zero⟩⟩ := by
  have h₁ : twoWaiting.unscheduled 1 = [⟨1, ⟨1, 0, ⟨.command, .zero⟩⟩⟩] := rfl
  have h₂ : twoWaiting.unscheduled 2 = [⟨2, ⟨2, 0, ⟨.commandLow, .zero⟩⟩⟩] := rfl
  refine ⟨h₁, h₂, ?_⟩
  obtain ⟨m, hm⟩ := fillUpSendQueue_of_nil (show twoWaiting.sendQueue = [] from rfl) cubic now
  obtain ⟨i, rec, rest, hrec, hhead, hmax⟩ :=
    @fillLoop_head now m twoWaiting.unscheduled twoWaiting ⟨1, by simp [h₁]⟩
  rw [hm, hhead]
  -- the pushed record was sent no earlier than the `CommandLow` record, at instant 2
  have hlate : (2 : Int) ≤ rec.sent := hmax 2 _ (by rw [h₂]; rfl)
  match i, hrec with
  | 0, hrec => cases hrec
  | 1, hrec => rw [h₁] at hrec; cases hrec; exact absurd hlate (by decide)
  | 2, hrec => rw [h₂] at hrec; cases hrec; rfl

end Resender

end TsClient.Resend
