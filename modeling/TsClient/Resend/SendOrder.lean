import TsClient.Resend.State
import Mathlib.Data.Prod.Lex

/-!
The order of `send_queue` (`Ord for SendRecordId` in `tsproto/src/resend.rs`) and the equality
of its entries (`PartialEq for SendRecordId`). The order is lexicographic: a packet never sent
ranks above a sent one, then the earlier last send ranks higher, then the lower partial id
(`cmp_eq_compareLex`). So it is antisymmetric and transitive, and two records compare equal
exactly when those three keys agree (`cmp_total_preorder`). The equality compares the whole
packet id instead, packet type included, and neither implies the other
(`cmp_disagrees_with_eq`). `send_queue` is a `BinaryHeap`, which calls only `cmp`.
-/

namespace TsClient.Resend

open Batteries

namespace SendRecordId

/-- `PartialEq for SendRecordId`: the packet ids are equal. -/
def eq (a b : SendRecordId) : Bool := a.id == b.id

def fresh (a : SendRecordId) : Bool := decide (a.tries = 0)

theorem cmp_eq_compareLex : SendRecordId.cmp = compareLex (compareOn fresh)
    (compareLex (flip (compareOn last)) (flip (compareOn (·.id.part.seq)))) := by
  funext a b
  simp only [SendRecordId.cmp, compareLex, compareOn, flip, PartialPacketId.cmp_eq,
    OrientedCmp.symm, fresh]
  by_cases ha : a.tries = 0 <;> by_cases hb : b.tries = 0 <;> simp [ha, hb] <;> rfl

instance : TransCmp SendRecordId.cmp := cmp_eq_compareLex ▸ inferInstance

theorem cmp_eq_eq_iff {a b : SendRecordId} :
    a.cmp b = .eq ↔ (a.tries = 0 ↔ b.tries = 0) ∧ a.last = b.last ∧ a.id.part = b.id.part := by
  simp only [cmp_eq_compareLex, compareLex, compareOn, flip, fresh, Ordering.then_eq_eq,
    compare_eq_iff_eq, Nat.compare_eq_eq, decide_eq_decide, PartialPacketId.seq_inj]
  exact and_congr_right fun _ => and_congr eq_comm eq_comm

/-- `Ord for SendRecordId` is a total preorder, whose ties are the records alike in freshness,
last send and partial id. -/
theorem cmp_total_preorder :
    (∀ a b : SendRecordId, a.cmp b = (b.cmp a).swap) ∧
    (∀ (a b c : SendRecordId) (o : Ordering), a.cmp b = o → b.cmp c = o → a.cmp c = o) ∧
    ∀ a b : SendRecordId, a.cmp b = .eq ↔
      ((a.tries = 0 ↔ b.tries = 0) ∧ a.last = b.last ∧ a.id.part = b.id.part) := by
  refine ⟨fun a b => (OrientedCmp.symm b a).symm, fun a b c o hab hbc => ?_,
    fun _ _ => cmp_eq_eq_iff⟩
  cases o
  · exact TransCmp.lt_trans hab hbc
  · exact (TransCmp.cmp_congr_left hab).trans hbc
  · exact TransCmp.gt_trans hab hbc

/-- Order and equality disagree both ways: across packet types, and for a record once resent. -/
theorem cmp_disagrees_with_eq :
    (mk 0 1 ⟨.command, ⟨0, 5⟩⟩).cmp (mk 0 1 ⟨.commandLow, ⟨0, 5⟩⟩) = .eq ∧
      (mk 0 1 ⟨.command, ⟨0, 5⟩⟩).eq (mk 0 1 ⟨.commandLow, ⟨0, 5⟩⟩) = false ∧
      (mk 0 1 ⟨.command, ⟨0, 5⟩⟩).cmp (mk 0 0 ⟨.command, ⟨0, 5⟩⟩) = .lt ∧
      (mk 0 1 ⟨.command, ⟨0, 5⟩⟩).eq (mk 0 0 ⟨.command, ⟨0, 5⟩⟩) = true := by
  decide

end SendRecordId

end TsClient.Resend
