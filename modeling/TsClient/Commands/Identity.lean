import TsClient.Rust

/-!
`Identity::upgrade_level` (`utils/tsproto-commands/src/lib.rs`): the search for a hash cash
counter (`client_key_offset`) whose level reaches a target. From the current counter it tries
one offset after the other, up to `u64::MAX`. It returns, never overflowing its `+= 1`, with
the first offset whose level reaches the target, or with `u64::MAX`; every offset it skips is
below the target (`upgradeLevel_first_offset`). When the key has no TeamSpeak form it fails and
leaves the counter as it was (`upgradeLevel_error`).
-/

namespace TsClient.Commands

/-- What `Identity` calls of `tsproto`: `EccKeyPrivP256::to_ts` and `get_hash_cash_level`. -/
structure HashCash (K : Type) where
  toTs : K → Except String String
  getHashCashLevel : String → UInt64 → UInt8

structure Identity (K : Type) where
  key : K
  counter : UInt64

variable {K : Type}

namespace Identity

def level (hc : HashCash K) (id : Identity K) : Except Failure UInt8 :=
  match hc.toTs id.key with
  | .error e => .error (.err e)
  | .ok omega => .ok (hc.getHashCashLevel omega id.counter)

def upgradeLoop (level : UInt64 → UInt8) (target : UInt8) :
    Nat → UInt64 → Except Failure UInt64
  | 0, offset => .ok offset
  | fuel + 1, offset =>
    if offset < u64Max ∧ level offset < target then
      match addU64 offset 1 with
      | .error f => .error f
      | .ok offset => upgradeLoop level target fuel offset
    else .ok offset

/-- `upgrade_level`: the loop gets a turn per offset below `u64::MAX`, so it never runs out. -/
def upgradeLevel (hc : HashCash K) (id : Identity K) (target : UInt8) :
    Outcome (Identity K) Unit :=
  match hc.toTs id.key with
  | .error e => ⟨id, .error (.err e)⟩
  | .ok omega =>
    match upgradeLoop (hc.getHashCashLevel omega) target (u64Max.toNat - id.counter.toNat)
      id.counter with
    | .error f => ⟨id, .error f⟩
    | .ok offset => ⟨{ id with counter := offset }, .ok ()⟩

theorem upgradeLoop_succ {level : UInt64 → UInt8} {target : UInt8} (fuel : Nat) {offset : UInt64}
    (hmax : offset.toNat < u64Max.toNat) (hl : level offset < target) :
    upgradeLoop level target (fuel + 1) offset = upgradeLoop level target fuel (offset + 1) ∧
      (offset + 1).toNat = offset.toNat + 1 := by
  rw [u64Max_toNat] at hmax
  refine ⟨?_, ?_⟩
  · rw [upgradeLoop, if_pos ⟨UInt64.lt_iff_toNat_lt.2 (by rw [u64Max_toNat]; omega), hl⟩,
      addU64, if_pos (by simp; omega)]
  · rw [UInt64.toNat_add, UInt64.size]
    exact Nat.mod_eq_of_lt (by simp; omega)

theorem upgradeLoop_spec (level : UInt64 → UInt8) (target : UInt8) :
    ∀ fuel (offset : UInt64), offset.toNat + fuel = u64Max.toNat →
      ∃ c, upgradeLoop level target fuel offset = .ok c ∧ offset ≤ c ∧
        (∀ o, offset ≤ o → o < c → level o < target) ∧
        (c = u64Max ∨ target ≤ level c) := by
  intro fuel
  induction fuel with
  | zero =>
    intro offset h
    exact ⟨offset, rfl, UInt64.le_refl _, fun o h₁ h₂ => absurd h₂ (UInt64.not_lt.2 h₁),
      .inl (UInt64.ext (by omega))⟩
  | succ fuel ih =>
    intro offset h
    by_cases hl : level offset < target
    · obtain ⟨hstep, hnext⟩ := upgradeLoop_succ fuel (by omega) hl
      obtain ⟨c, hc, hle, hbelow, hstop⟩ := ih (offset + 1) (by omega)
      rw [UInt64.le_iff_toNat_le, hnext] at hle
      refine ⟨c, hstep ▸ hc, UInt64.le_iff_toNat_le.2 (by omega), fun o h₁ h₂ => ?_,
        hstop⟩
      by_cases ho : o = offset
      · exact ho ▸ hl
      · have : offset.toNat ≠ o.toNat := fun h => ho (UInt64.ext h.symm)
        rw [UInt64.le_iff_toNat_le] at h₁
        exact hbelow o (UInt64.le_iff_toNat_le.2 (by omega)) h₂
    · exact ⟨offset, by rw [upgradeLoop, if_neg fun h => hl h.2], UInt64.le_refl _,
        fun o h₁ h₂ => absurd h₂ (UInt64.not_lt.2 h₁), .inr (UInt8.not_lt.1 hl)⟩

/-- `upgrade_level` sets the counter to the first offset from the old one whose level reaches
`target`, or to `u64::MAX`. -/
theorem upgradeLevel_first_offset (hc : HashCash K) (id : Identity K) (target : UInt8)
    {omega : String} (h : hc.toTs id.key = .ok omega) :
    ∃ c, id.upgradeLevel hc target = ⟨{ id with counter := c }, .ok ()⟩ ∧ id.counter ≤ c ∧
      (∀ o, id.counter ≤ o → o < c → hc.getHashCashLevel omega o < target) ∧
      (c = u64Max ∨ target ≤ hc.getHashCashLevel omega c) := by
  have hfuel : id.counter.toNat + (u64Max.toNat - id.counter.toNat) = u64Max.toNat := by
    have := id.counter.toNat_lt
    rw [u64Max_toNat]
    omega
  obtain ⟨c, hl, hrest⟩ := upgradeLoop_spec (hc.getHashCashLevel omega) target _ _ hfuel
  exact ⟨c, by simp only [upgradeLevel, h, hl], hrest⟩

/-- Levels that reach 8 only from offset 5 on. -/
def stepCash : HashCash Unit := ⟨fun _ => .ok "omega", fun _ o => if o < 5 then 0 else 8⟩

theorem upgradeLevel_stepCash :
    stepCash.toTs () = .ok "omega" ∧
      ∃ c, (⟨(), 0⟩ : Identity Unit).upgradeLevel stepCash 8 = ⟨⟨(), c⟩, .ok ()⟩ ∧ 0 ≤ c ∧
        (∀ o, 0 ≤ o → o < c → stepCash.getHashCashLevel "omega" o < 8) ∧
        (c = u64Max ∨ 8 ≤ stepCash.getHashCashLevel "omega" c) :=
  ⟨rfl, upgradeLevel_first_offset stepCash ⟨(), 0⟩ 8 rfl⟩

theorem upgradeLevel_error (hc : HashCash K) (id : Identity K) (target : UInt8) {e : String}
    (h : hc.toTs id.key = .error e) : id.upgradeLevel hc target = ⟨id, .error (.err e)⟩ := by
  simp only [upgradeLevel, h]

end Identity

end TsClient.Commands
