import TsClient.Rust

/-!
Packet ids of the reliable packet types (`PartialPacketId` and `PacketId` in
`tsproto/src/resend.rs`): a 32-bit generation and a 16-bit packet id, ordered
lexicographically, with `+` and `-` of a `u16` carrying into and borrowing from the generation.
Everything here is read back through `seq`, the id's place in its type's sequence, so that
orders and increments become arithmetic on `Nat`.
-/

namespace TsClient.Resend

structure PartialPacketId where
  generationId : UInt32
  packetId : UInt16
  deriving DecidableEq, Repr

namespace PartialPacketId

/-- The id's place in its type's sequence: `generation_id · 2^16 + packet_id`. -/
def seq (p : PartialPacketId) : Nat := p.generationId.toNat * 2 ^ 16 + p.packetId.toNat

/-- `Ord for PartialPacketId`: the generation first, then the packet id. -/
def cmp (a b : PartialPacketId) : Ordering :=
  (compare a.generationId.toNat b.generationId.toNat).then
    (compare a.packetId.toNat b.packetId.toNat)

/-- `PartialOrd` through `cmp`, as the source derives it. -/
instance : LT PartialPacketId := ⟨fun a b => a.cmp b = .lt⟩

instance (a b : PartialPacketId) : Decidable (a < b) :=
  inferInstanceAs (Decidable (a.cmp b = .lt))

/-- `Add<u16>`: `overflowing_add` on the packet id, carrying into the generation. -/
def add (p : PartialPacketId) (rhs : UInt16) : PartialPacketId where
  generationId := if 2 ^ 16 ≤ p.packetId.toNat + rhs.toNat then p.generationId + 1 else p.generationId
  packetId := p.packetId + rhs

/-- `Sub<u16>`: `overflowing_sub` on the packet id, borrowing from the generation. -/
def sub (p : PartialPacketId) (rhs : UInt16) : PartialPacketId where
  generationId := if p.packetId.toNat < rhs.toNat then p.generationId - 1 else p.generationId
  packetId := p.packetId - rhs

def zero : PartialPacketId := ⟨0, 0⟩

def max : PartialPacketId := ⟨4294967295, 65535⟩

theorem seq_lt (p : PartialPacketId) : p.seq < 2 ^ 48 := by
  have := p.generationId.toNat_lt
  have := p.packetId.toNat_lt
  simp only [seq]
  omega

theorem seq_injective {a b : PartialPacketId} (h : a.seq = b.seq) : a = b := by
  have := a.packetId.toNat_lt
  have := b.packetId.toNat_lt
  simp only [seq] at h
  have hg : a.generationId.toNat = b.generationId.toNat := by omega
  have hp : a.packetId.toNat = b.packetId.toNat := by omega
  cases a
  cases b
  simp only [mk.injEq]
  exact ⟨UInt32.ext_iff.mpr hg, UInt16.ext_iff.mpr hp⟩

theorem seq_inj {a b : PartialPacketId} : a.seq = b.seq ↔ a = b :=
  ⟨seq_injective, fun h => h ▸ rfl⟩

@[simp] theorem seq_zero : zero.seq = 0 := rfl

@[simp] theorem seq_max : max.seq = 2 ^ 48 - 1 := rfl

private theorem compare_then_eq (a b c d : Nat) (hc : c < 2 ^ 16) (hd : d < 2 ^ 16) :
    (compare a b).then (compare c d) = compare (a * 2 ^ 16 + c) (b * 2 ^ 16 + d) := by
  have hab : a < b → a * 2 ^ 16 + 2 ^ 16 ≤ b * 2 ^ 16 := fun h => by
    simpa [Nat.succ_mul] using Nat.mul_le_mul_right (2 ^ 16) h
  have hba : b < a → b * 2 ^ 16 + 2 ^ 16 ≤ a * 2 ^ 16 := fun h => by
    simpa [Nat.succ_mul] using Nat.mul_le_mul_right (2 ^ 16) h
  simp only [Nat.compare_def_lt]
  split_ifs <;> first | rfl | (exfalso; omega)

theorem cmp_eq (a b : PartialPacketId) : a.cmp b = compare a.seq b.seq :=
  compare_then_eq _ _ _ _ a.packetId.toNat_lt b.packetId.toNat_lt

theorem lt_iff_seq_lt {a b : PartialPacketId} : a < b ↔ a.seq < b.seq := by
  show a.cmp b = .lt ↔ _
  rw [cmp_eq, Nat.compare_eq_lt]

/-- `p + n` moves `n` places along the sequence, wrapping at `2^48`. -/
theorem seq_add (p : PartialPacketId) (n : UInt16) : (p.add n).seq = (p.seq + n.toNat) % 2 ^ 48 := by
  have hg := p.generationId.toNat_lt
  have hp := p.packetId.toNat_lt
  have hn := n.toNat_lt
  simp only [seq, add]
  split_ifs with h
  · rw [UInt32.toNat_add, UInt16.toNat_add, show (1 : UInt32).toNat = 1 from rfl, UInt16.size,
      UInt32.size]
    omega
  · rw [UInt16.toNat_add, UInt16.size]
    omega

theorem seq_add_one (p : PartialPacketId) : (p.add 1).seq = (p.seq + 1) % 2 ^ 48 :=
  seq_add p 1

theorem seq_sub (p : PartialPacketId) (n : UInt16) :
    (p.sub n).seq = (p.seq + (2 ^ 48 - n.toNat)) % 2 ^ 48 := by
  have hg := p.generationId.toNat_lt
  have hp := p.packetId.toNat_lt
  have hn := n.toNat_lt
  simp only [seq, sub]
  split_ifs with h
  · rw [UInt32.toNat_sub, UInt16.toNat_sub, show (1 : UInt32).toNat = 1 from rfl, UInt16.size,
      UInt32.size]
    omega
  · rw [UInt16.toNat_sub, UInt16.size]
    omega

theorem seq_sub_one (p : PartialPacketId) : (p.sub 1).seq = (p.seq + (2 ^ 48 - 1)) % 2 ^ 48 :=
  seq_sub p 1

theorem seq_sub_one_of_pos {p : PartialPacketId} (h : 0 < p.seq) : (p.sub 1).seq = p.seq - 1 := by
  have := p.seq_lt
  rw [seq_sub_one]
  omega

theorem arith_by_seq (p q : PartialPacketId) (n : UInt16) :
    (p.add n).seq = (p.seq + n.toNat) % 2 ^ 48 ∧
      ((p.sub n).seq : Int) = ((p.seq : Int) - n.toNat) % 2 ^ 48 ∧
      p.cmp q = compare p.seq q.seq ∧ (p.add n).sub n = p ∧ (p.sub n).add n = p := by
  have hp := p.seq_lt
  have hn := n.toNat_lt
  refine ⟨seq_add p n, ?_, cmp_eq p q, seq_injective ?_, seq_injective ?_⟩
  · rw [seq_sub]
    omega
  · rw [seq_sub, seq_add]
    omega
  · rw [seq_add, seq_sub]
    omega

/-- Ids whose sequence numbers are less than `2^16` apart differ in their packet ids. -/
theorem eq_of_packetId_eq {a b : PartialPacketId} (h : a.packetId = b.packetId)
    (hab : a.seq ≤ b.seq) (hspan : b.seq < a.seq + 2 ^ 16) : a = b := by
  have hp := UInt16.ext_iff.mp h
  have := a.packetId.toNat_lt
  apply seq_injective
  simp only [seq] at hab hspan ⊢
  have : a.generationId.toNat = b.generationId.toNat := by
    rcases Nat.lt_trichotomy a.generationId.toNat b.generationId.toNat with hg | hg | hg
    · have : (a.generationId.toNat + 1) * 2 ^ 16 ≤ b.generationId.toNat * 2 ^ 16 :=
        Nat.mul_le_mul_right _ hg
      omega
    · exact hg
    · have : (b.generationId.toNat + 1) * 2 ^ 16 ≤ a.generationId.toNat * 2 ^ 16 :=
        Nat.mul_le_mul_right _ hg
      omega
  omega

end PartialPacketId

/-- Modelled from the spec: the packet types of a header; the resender handles three of them. -/
inductive PacketType
  | voice
  | command
  | commandLow
  | ack
  | init
  deriving DecidableEq, Repr

/-- `packet_type_to_index`, which panics on the types that are not resent. -/
def packetTypeToIndex : PacketType → Except Failure (Fin 3)
  | .init => .ok 0
  | .command => .ok 1
  | .commandLow => .ok 2
  | _ => .error (.panic "Resender cannot handle packet type")

def indexType : Fin 3 → PacketType
  | 0 => .init
  | 1 => .command
  | 2 => .commandLow

@[simp] theorem packetTypeToIndex_indexType : ∀ i : Fin 3, packetTypeToIndex (indexType i) = .ok i
  | 0 => rfl
  | 1 => rfl
  | 2 => rfl

theorem indexType_injective {i j : Fin 3} (h : indexType i = indexType j) : i = j := by
  have := packetTypeToIndex_indexType i
  rw [h, packetTypeToIndex_indexType] at this
  cases this
  rfl

theorem indexType_of_packetTypeToIndex {t : PacketType} {i : Fin 3}
    (h : packetTypeToIndex t = .ok i) : indexType i = t := by
  cases t <;> cases h <;> rfl

structure PacketId where
  packetType : PacketType
  part : PartialPacketId
  deriving DecidableEq, Repr

end TsClient.Resend
