import Mathlib.Data.String.Basic
import Mathlib.Data.UInt

/-!
What the model takes from Rust. Sequence numbers are `u16` and `u32` values: their
`wrapping_*` operations are the `UInt16` and `UInt32` operations of Lean, read back as
arithmetic on `Nat` (`UInt16.toNat_add` and its kin), so that proofs about ids close with
`omega`. Calls are modelled as the debug build runs them: a plain `+` or `-` on a fixed-width
value panics where the exact result leaves the type (`addU16`, `addU64`, `subUsize`), and so
does a failed `debug_assert!`. `usize` values are `Nat`; the only `usize` operations that can
leave their range are subtractions. The hash cash counter is a `u64`, a `UInt64`.
-/

theorem UInt16.lt_iff_toNat_lt {a b : UInt16} : a < b ↔ a.toNat < b.toNat := Iff.rfl

theorem UInt64.lt_iff_toNat_lt {a b : UInt64} : a < b ↔ a.toNat < b.toNat := Iff.rfl

theorem UInt64.le_iff_toNat_le {a b : UInt64} : a ≤ b ↔ a.toNat ≤ b.toNat := Iff.rfl

theorem UInt16.toNat_ofNat' (n : Nat) : (UInt16.ofNat n).toNat = n % 2 ^ 16 := by
  show (BitVec.ofNat 16 n).toNat = _
  simp

namespace TsClient

/-- How a call ends early: an `Err` it returns, or a panic of the debug build. -/
inductive Failure
  | err (msg : String)
  | panic (msg : String)
  deriving DecidableEq, Repr

/-- What a call on `&mut self` leaves: the state, and the returned value or the failure. -/
structure Outcome (σ α : Type) where
  state : σ
  result : Except Failure α

/-- The call returned, with a value or an `Err`: it did not panic. -/
def Returns {α : Type} (r : Except Failure α) : Prop := ∀ msg, r ≠ .error (.panic msg)

theorem returns_ok {α : Type} (a : α) : Returns (.ok a : Except Failure α) := fun _ h => nomatch h

theorem returns_err {α : Type} (msg : String) : Returns (.error (.err msg) : Except Failure α) :=
  fun _ h => nomatch h

def addU16 (a b : UInt16) : Except Failure UInt16 :=
  if a.toNat + b.toNat < 2 ^ 16 then .ok (a + b) else .error (.panic "attempt to add with overflow")

def u64Max : UInt64 := 18446744073709551615

theorem u64Max_toNat : u64Max.toNat = 2 ^ 64 - 1 := rfl

def addU64 (a b : UInt64) : Except Failure UInt64 :=
  if a.toNat + b.toNat < 2 ^ 64 then .ok (a + b) else .error (.panic "attempt to add with overflow")

def subUsize (a b : Nat) : Except Failure Nat :=
  if b ≤ a then .ok (a - b) else .error (.panic "attempt to subtract with overflow")

theorem addU16_eq_ok {a b c : UInt16} (h : addU16 a b = .ok c) :
    a.toNat + b.toNat < 2 ^ 16 ∧ c = a + b := by
  unfold addU16 at h
  split at h
  · exact ⟨‹_›, (Except.ok.inj h).symm⟩
  · cases h

@[simp] theorem subUsize_of_le {a b : Nat} (h : b ≤ a) : subUsize a b = .ok (a - b) := if_pos h

/-! A `HashMap` is its list of entries, whose keys are distinct; `get` is `List.lookup`. -/

section HashMap

variable {K V : Type} [DecidableEq K]

theorem mem_of_lookup_eq_some {l : List (K × V)} {k : K} {v : V} (h : l.lookup k = some v) :
    (k, v) ∈ l := by
  obtain ⟨l₁, l₂, rfl, -⟩ := List.lookup_eq_some_iff.mp h
  simp

theorem not_mem_of_lookup_eq_none {l : List (K × V)} {k : K} (h : l.lookup k = none) :
    k ∉ l.map (·.1) := by
  rw [List.lookup_eq_none_iff] at h
  simp only [List.mem_map, not_exists, not_and]
  intro e he hk
  simpa [hk] using h e he

theorem filter_key_ne_of_not_mem {l : List (K × V)} {k : K} (h : k ∉ l.map (·.1)) :
    l.filter (·.1 ≠ k) = l :=
  List.filter_eq_self.2 fun e he => by
    simpa using fun hk : e.1 = k => h (hk ▸ List.mem_map_of_mem _ he)

end HashMap

end TsClient
