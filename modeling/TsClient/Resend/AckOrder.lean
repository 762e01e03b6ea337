import TsClient.Resend.Schedule

/-!
The order of the `AckPacket` items that `ack_packet` emits. An acknowledgement of the first
stored record of a type emits `next - 1`, where `next` is the second stored id, or for `Init` the
acknowledged packet id plus one in generation 0, or else the codec's next id (`emission_spec`).

Along every run whose packets take their type's consecutive ids from the codec, starting at
generation 0, and whose `Init` ids stay in generation 0, the emitted ids of each type strictly
increase and lie below every outstanding id and every id still to be sent; each emission is one
before the oldest outstanding id, or with none outstanding, one before the codec's next id for
`Command` and `CommandLow` and the acknowledged id itself for `Init`
(`reachable_acks_in_order`). For `Init` that is not the id before the next one to send: after
acknowledgements of ids 1 and then 0, the emitted id is 0 while the next id is 2
(`ackPacket_init_out_of_order`).
-/

namespace TsClient.Resend

/-- The ids of the `AckPacket` items emitted for packet type `t`, oldest first. -/
def emitted (con : Connection) (t : PacketType) : List PartialPacketId :=
  (con.ackPackets.filter (·.packetType = t)).map (·.part)

@[simp] theorem emitted_removeAcked (con : Connection) (i : Fin 3) (k : PartialPacketId)
    (now : Int) (t : PacketType) : emitted (con.removeAcked i k now) t = emitted con t := by
  simp [emitted]

theorem emitted_append (con : Connection) (e : PacketId) (t : PacketType) :
    emitted { con with ackPackets := con.ackPackets ++ [e] } t =
      emitted con t ++ if e.packetType = t then [e.part] else [] := by
  by_cases h : e.packetType = t <;> simp [emitted, List.filter_append, h]

/-! ### What a run keeps of the ids -/

theorem reachable_nextFresh_le {cubic : Cubic} {cap : Nat} {now : Int} {r : Run}
    (hr : Reachable cubic cap now r) : ∀ t, r.nextFresh t ≤ 2 ^ 48 := by
  induction hr with
  | refl => exact fun _ => Nat.zero_le _
  | tail _ hs ih =>
    intro t
    cases hs with
    | send p _ _ _ _ =>
      dsimp only
      rw [Function.update_apply]
      split_ifs
      · exact p.part.seq_lt
      · exact ih t
    | ack => exact ih t
    | poll => exact ih t

theorem Step.consecutive_of {cubic : Cubic} {r r' : Run} (hs : Step cubic r r')
    (h : r'.consecutive = true) : r.consecutive = true := by
  cases hs with
  | send => exact ((Bool.and_eq_true _ _).mp h).1
  | ack => exact h
  | poll => exact h

theorem reachable_counted {cubic : Cubic} {cap : Nat} {now : Int} {r : Run}
    (hr : Reachable cubic cap now r) :
    r.consecutive = true → ∀ t, (r.con.outgoingPIds t).seq = r.nextFresh t % 2 ^ 48 := by
  induction hr with
  | refl => exact fun _ _ => PartialPacketId.seq_zero
  | tail _ hs ih =>
    intro hc t
    have ih := ih (hs.consecutive_of hc)
    cases hs with
    | send p _ _ _ _ =>
      dsimp only
      rw [Function.update_apply, Function.update_apply]
      split_ifs
      · exact PartialPacketId.seq_add_one _
      · exact ih t
    | ack _ _ _ _ hack =>
      show (Connection.outgoingPIds _ t).seq = _
      rw [Connection.ackPacket_outgoingPIds hack]
      exact ih t
    | poll => exact ih t

/-! ### The invariant of the emitted ids -/

/-- Each type's emitted ids increase and lie below its least unused id and every stored id. -/
structure AckInv (con : Connection) (nextFresh : PacketType → Nat) : Prop where
  sorted : ∀ t, (emitted con t).Pairwise (·.seq < ·.seq)
  below_fresh : ∀ t, ∀ e ∈ emitted con t, e.seq < nextFresh t
  below_keys : ∀ i, ∀ e ∈ emitted con (indexType i),
    ∀ k ∈ (con.resender.fullSendQueue i).keys, e.seq < k.seq

theorem AckInv.removeAcked {con : Connection} {nf : PacketType → Nat} (h : AckInv con nf)
    (i : Fin 3) (k : PartialPacketId) (now : Int) : AckInv (con.removeAcked i k now) nf := by
  refine ⟨fun t => by simpa using h.sorted t, fun t e he => h.below_fresh t e (by simpa using he),
    fun j e he k' hk' => h.below_keys j e (by simpa using he) k' ?_⟩
  simp only [Connection.removeAcked_fullSendQueue] at hk'
  obtain ⟨x, hx, rfl⟩ := List.mem_map.mp hk'
  exact List.mem_map_of_mem _ (mem_erased hx)

/-! ### One emission -/

section Emission

variable {con : Connection} {nf : PacketType → Nat} (hst : StoreInv con.resender nf)
  (hle : ∀ t, nf t ≤ 2 ^ 48) (hcnt : ∀ t, (con.outgoingPIds t).seq = nf t % 2 ^ 48)
  (hinit : nf .init ≤ 2 ^ 16) {t : PacketType} {i : Fin 3} {first : PartialPacketId}
  {r₁ : SendRecord} {rest : List (PartialPacketId × SendRecord)} {next : PartialPacketId}
  (hi : packetTypeToIndex t = .ok i)
  (hs : (con.resender.fullSendQueue i).entries = (first, r₁) :: rest)
  (hn : con.ackedBefore t first.packetId rest = .ok next)
include hst hle hcnt hinit hi hs hn

theorem emission_spec :
    (∀ second r₂ tl, rest = (second, r₂) :: tl → (next.sub 1).seq + 1 = second.seq) ∧
      (rest = [] →
        if t = .init then (next.sub 1).seq = first.seq else (next.sub 1).seq + 1 = nf t) := by
  have ht := indexType_of_packetTypeToIndex hi
  have hfirst := hst.key_fresh i _ (hs ▸ List.mem_cons_self _ _)
  rw [ht] at hfirst
  cases rest with
  | cons x tl =>
    obtain ⟨second, r₂⟩ := x
    refine ⟨fun _ _ _ h => ?_, fun h => nomatch h⟩
    obtain ⟨rfl, rfl⟩ := Prod.mk.inj (List.cons.inj h).1
    cases hn
    have hkey := hst.keyed i (second, r₂) (hs ▸ List.mem_cons_of_mem _ (List.mem_cons_self _ _))
    have hlt := (List.pairwise_cons.mp (hs ▸ (con.resender.fullSendQueue i).sorted)).1 _
      (List.mem_cons_self _ _)
    dsimp only at hlt
    rw [hkey]
    show (second.sub 1).seq + 1 = second.seq
    rw [PartialPacketId.seq_sub_one_of_pos (Nat.lt_of_le_of_lt (Nat.zero_le _) hlt)]
    omega
  | nil =>
    refine ⟨fun _ _ _ h => (nomatch h), fun _ => ?_⟩
    simp only [Connection.ackedBefore] at hn
    split_ifs at hn ⊢ with hinit'
    · cases hadd : addU16 first.packetId 1 with
      | error f => rw [hadd] at hn; cases hn
      | ok n =>
        rw [hadd] at hn
        cases hn
        obtain ⟨hlt, rfl⟩ := addU16_eq_ok hadd
        rw [hinit'] at hfirst
        have h1 : (1 : UInt16).toNat = 1 := rfl
        have h0 : (0 : UInt32).toNat = 0 := rfl
        rw [PartialPacketId.seq_sub_one]
        simp only [PartialPacketId.seq, h0, UInt16.toNat_add, UInt16.size, h1] at hfirst hlt ⊢
        omega
    · cases hn
      rw [PartialPacketId.seq_sub_one, hcnt t]
      have := hle t
      omega

theorem emission_bounds :
    first.seq ≤ (next.sub 1).seq ∧ (∀ k ∈ rest.map (·.1), (next.sub 1).seq < k.seq) ∧
      (next.sub 1).seq < nf t := by
  have hspec := emission_spec hst hle hcnt hinit hi hs hn
  have ht := indexType_of_packetTypeToIndex hi
  have hsorted := List.pairwise_cons.mp (hs ▸ (con.resender.fullSendQueue i).sorted)
  have hfresh : ∀ e ∈ (first, r₁) :: rest, e.1.seq < nf t := fun e he =>
    ht ▸ hst.key_fresh i e (hs ▸ he)
  have h1 := hfresh _ (List.mem_cons_self _ _)
  dsimp only at h1
  cases rest with
  | cons x tl =>
    obtain ⟨second, r₂⟩ := x
    have hspec := hspec.1 second r₂ tl rfl
    have h12 := hsorted.1 _ (List.mem_cons_self _ _)
    have h2 := hfresh _ (List.mem_cons_of_mem _ (List.mem_cons_self _ _))
    dsimp only at h12 h2
    refine ⟨by omega, fun k hk => ?_, by omega⟩
    rcases List.mem_cons.mp hk with rfl | hk
    · omega
    · obtain ⟨x, hx, rfl⟩ := List.mem_map.mp hk
      have := (List.pairwise_cons.mp hsorted.2).1 x hx
      dsimp only at this
      omega
  | nil =>
    have hspec := hspec.2 rfl
    refine ⟨?_, fun k hk => by simp at hk, ?_⟩ <;> split_ifs at hspec <;> omega

theorem AckInv.emit (h : AckInv con nf) (now : Int) :
    AckInv ({ con with ackPackets := con.ackPackets ++ [PacketId.mk t (next.sub 1)] }.removeAcked
      i first now) nf := by
  obtain ⟨hlo, hrest, hnf⟩ := emission_bounds hst hle hcnt hinit hi hs hn
  have ht := indexType_of_packetTypeToIndex hi
  -- the old emissions of the type lie below the acknowledged id
  have hold : ∀ e ∈ emitted con t, e.seq < first.seq := fun e he =>
    h.below_keys i e (ht ▸ he) first (by rw [Store.keys, hs]; exact List.mem_cons_self _ _)
  have hem : ∀ t', emitted ({ con with ackPackets := con.ackPackets ++
      [PacketId.mk t (next.sub 1)] }.removeAcked i first now) t' =
      emitted con t' ++ if t = t' then [next.sub 1] else [] := fun t' => by
    rw [emitted_removeAcked, emitted_append]
  refine ⟨fun t' => ?_, fun t' e he => ?_, fun j e he k hk => ?_⟩ <;> rw [hem] at *
  · split_ifs with htp
    · subst htp
      exact List.pairwise_append.mpr ⟨h.sorted _, List.pairwise_singleton _ _,
        fun a ha b hb => by rw [List.mem_singleton.mp hb]; have := hold a ha; omega⟩
    · simpa using h.sorted t'
  · split_ifs at he with htp
    · rcases List.mem_append.mp he with he | he
      · exact h.below_fresh t' e he
      · rw [List.mem_singleton.mp he, ← htp]
        exact hnf
    · exact h.below_fresh t' e (by simpa using he)
  · rw [Connection.removeAcked_fullSendQueue] at hk
    by_cases hj : j = i
    · subst hj
      rw [Function.update_same, Store.keys, Store.erase_head hs] at hk
      have hk' : k ∈ (con.resender.fullSendQueue j).keys := by
        rw [Store.keys, hs]
        exact List.mem_cons_of_mem _ hk
      rw [if_pos ht.symm] at he
      rcases List.mem_append.mp he with he | he
      · exact h.below_keys j e he k hk'
      · rw [List.mem_singleton.mp he]
        exact hrest k hk
    · rw [Function.update_noteq hj] at hk
      have hne : t ≠ indexType j := fun heq => hj (indexType_injective (ht.trans heq)).symm
      rw [if_neg hne, List.append_nil] at he
      exact h.below_keys j e he k hk

end Emission

theorem AckInv.step {cubic : Cubic} {r r' : Run} (h : AckInv r.con r.nextFresh)
    (hst : StoreInv r.con.resender r.nextFresh) (hle : ∀ t, r.nextFresh t ≤ 2 ^ 48)
    (hcnt : ∀ t, (r.con.outgoingPIds t).seq = r.nextFresh t % 2 ^ 48)
    (hinit : r.nextFresh .init ≤ 2 ^ 16) (hs : Step cubic r r') : AckInv r'.con r'.nextFresh := by
  cases hs with
  | send p now _ hfresh hsend =>
    obtain ⟨i, hi, rfl⟩ := Resender.sendPacket_ok hsend
    have ht := indexType_of_packetTypeToIndex hi
    refine ⟨h.sorted, fun t e he => Nat.lt_of_lt_of_le (h.below_fresh t e he) (le_update_succ hfresh t),
      fun j e he k hk => ?_⟩
    simp only [Resender.fillUpSendQueue_fullSendQueue] at hk
    obtain ⟨x, hx, rfl⟩ := List.mem_map.mp hk
    rcases mem_stored hx with ⟨rfl, rfl⟩ | hx
    · have := h.below_fresh _ e he
      rw [ht] at this
      exact Nat.lt_of_lt_of_le this hfresh
    · exact h.below_keys j e he _ (List.mem_map_of_mem _ hx)
  | ack pType pId now _ hack =>
    obtain ⟨i, hi, ⟨k, rfl⟩ | ⟨first, r₁, rest, next, hs, rfl, hn, rfl⟩⟩ :=
      Connection.ackPacket_ok hack
    · exact h.removeAcked i k now
    · exact h.emit hst hle hcnt hinit hi hs hn now
  | poll _ _ _ _ _ _ hp =>
    exact ⟨h.sorted, h.below_fresh, fun j e he k hk =>
      h.below_keys j e he k (Resender.pollPass_keys hp j ▸ hk)⟩

theorem reachable_ackInv {cubic : Cubic} {cap : Nat} {now : Int} {r : Run}
    (hr : Reachable cubic cap now r) :
    r.consecutive = true → r.nextFresh .init ≤ 2 ^ 16 → AckInv r.con r.nextFresh := by
  induction hr with
  | refl => exact fun _ _ => ⟨fun _ => .nil, fun _ _ he => (by cases he), fun _ _ he => (by cases he)⟩
  | tail hr' hs ih =>
    intro hc hinit
    have hc₀ := hs.consecutive_of hc
    have hinit₀ := Nat.le_trans (hs.nextFresh_le _) hinit
    exact (ih hc₀ hinit₀).step (reachable_storeInv hr') (reachable_nextFresh_le hr')
      (reachable_counted hr' hc₀) hinit₀ hs

/-! ### Runs -/

/-- A new connection sends `Init` packets 0 and 1 at `now`, whatever the window function. -/
theorem twoInits_sent (cubic : Cubic) (now : Int) :
    ∃ r, Reachable cubic 50 now r ∧ r.consecutive = true ∧ r.nextFresh .init = 2 ∧
      r.clock = now ∧ r.con.outgoingPIds .init = ⟨0, 2⟩ ∧ r.con.ackPackets = [] ∧
      (r.con.resender.fullSendQueue 0).entries =
        [(⟨0, 0⟩, ⟨now, ⟨now, 0, ⟨.init, ⟨0, 0⟩⟩⟩⟩), (⟨0, 1⟩, ⟨now, ⟨now, 0, ⟨.init, ⟨0, 1⟩⟩⟩⟩)] := by
  obtain ⟨r₁, s₁, hq₁, ha₁, ho₁, hn₁, hc₁, hk₁⟩ := @Step.send_stores cubic (Run.init 50 now)
    ⟨.init, ⟨0, 0⟩⟩ now 0 rfl (Int.le_refl _) (Nat.zero_le _)
  obtain ⟨r₂, s₂, hq₂, ha₂, ho₂, hn₂, hc₂, hk₂⟩ := @Step.send_stores cubic r₁ ⟨.init, ⟨0, 1⟩⟩ now 0
    rfl (hk₁ ▸ Int.le_refl _) (by rw [hn₁, Function.update_same]; decide)
  refine ⟨r₂, (Relation.ReflTransGen.single s₁).tail s₂, ?_, ?_, hk₂, ?_, ha₂.trans ha₁, ?_⟩
  · rw [hc₂, hc₁, ho₁]
    rfl
  · rw [hn₂, Function.update_same]
    rfl
  · rw [ho₂, Function.update_same]
    rfl
  · rw [hq₂, Function.update_same, hq₁, Function.update_same]
    rfl

/-- Along a run of codec ids from generation 0, `Init` ones staying there, each type's emitted
ids increase below every id outstanding or unused, and an emission is as `emission_spec` says. -/
theorem reachable_acks_in_order {cubic : Cubic} {cap : Nat} {now : Int} {r : Run}
    (hr : Reachable cubic cap now r) (hc : r.consecutive = true)
    (hinit : r.nextFresh .init ≤ 2 ^ 16) :
    (∀ t, (emitted r.con t).Pairwise (·.seq < ·.seq)) ∧
    (∀ i, ∀ e ∈ emitted r.con (indexType i), e.seq < r.nextFresh (indexType i) ∧
        ∀ k ∈ (r.con.resender.fullSendQueue i).keys, e.seq < k.seq) ∧
    ∀ r', Step cubic r r' → ∀ e, r'.con.ackPackets = r.con.ackPackets ++ [e] →
      ∃ i, packetTypeToIndex e.packetType = .ok i ∧
        match (r'.con.resender.fullSendQueue i).keys with
        | k :: _ => e.part.seq + 1 = k.seq
        | [] => if e.packetType = .init then e.part ∈ (r.con.resender.fullSendQueue i).keys
            else e.part.seq + 1 = r.nextFresh e.packetType := by
  have h := reachable_ackInv hr hc hinit
  refine ⟨h.sorted, fun i e he => ⟨h.below_fresh _ e he, h.below_keys i e he⟩,
    fun r' hs e he => ?_⟩
  cases hs with
  | send => simp at he
  | poll => simp at he
  | ack pType pId now _ hack =>
    obtain ⟨i, hi, ⟨k, rfl⟩ | ⟨first, r₁, rest, next, hs, rfl, hn, rfl⟩⟩ :=
      Connection.ackPacket_ok hack
    · simp at he
    · simp only [Connection.removeAcked_ackPackets, List.append_cancel_left_eq, List.cons.injEq,
        and_true] at he
      subst he
      refine ⟨i, hi, ?_⟩
      have hspec := emission_spec (reachable_storeInv hr) (reachable_nextFresh_le hr)
        (reachable_counted hr hc) hinit hi hs hn
      dsimp only
      rw [Connection.removeAcked_fullSendQueue, Function.update_same, Store.keys, Store.erase_head hs]
      cases rest with
      | cons x tl => exact hspec.1 x.1 x.2 tl rfl
      | nil =>
        have hspec := hspec.2 rfl
        show if pType = .init then _ else _
        split_ifs at hspec ⊢
        · rw [PartialPacketId.seq_injective hspec, Store.keys, hs]
          exact List.mem_cons_self _ _
        · exact hspec

theorem reachable_acks_in_order_twoInits :
    ∃ r r', Reachable (fun _ _ => 1) 50 0 r ∧ r.consecutive = true ∧ r.nextFresh .init ≤ 2 ^ 16 ∧
      emitted r.con .init = [⟨0, 0⟩] ∧ (r.con.resender.fullSendQueue 0).keys = [⟨0, 1⟩] ∧
      Step (fun _ _ => 1) r r' ∧ r'.con.ackPackets = r.con.ackPackets ++ [⟨.init, ⟨0, 1⟩⟩] ∧
      ((∀ t, (emitted r.con t).Pairwise (·.seq < ·.seq)) ∧
      (∀ i, ∀ e ∈ emitted r.con (indexType i), e.seq < r.nextFresh (indexType i) ∧
          ∀ k ∈ (r.con.resender.fullSendQueue i).keys, e.seq < k.seq) ∧
      ∀ r', Step (fun _ _ => 1) r r' → ∀ e, r'.con.ackPackets = r.con.ackPackets ++ [e] →
        ∃ i, packetTypeToIndex e.packetType = .ok i ∧
          match (r'.con.resender.fullSendQueue i).keys with
          | k :: _ => e.part.seq + 1 = k.seq
          | [] => if e.packetType = .init then e.part ∈ (r.con.resender.fullSendQueue i).keys
              else e.part.seq + 1 = r.nextFresh e.packetType) := by
  obtain ⟨r₂, hr₂, hc₂, hn₂, hk₂, -, ha₂, hs₂⟩ := twoInits_sent (fun _ _ => 1) 0
  have hack : r₂.con.ackPacket .init 0 0 = .ok (({ r₂.con with
      ackPackets := r₂.con.ackPackets ++ [⟨.init, ⟨0, 0⟩⟩] } : Connection).removeAcked 0 ⟨0, 0⟩ 0) :=
    Connection.ackPacket_of_eq (rfl : packetTypeToIndex .init = .ok 0) hs₂ rfl 0
  have hr₃ := hr₂.tail (Step.ack .init 0 0 (hk₂ ▸ Int.le_refl _) hack)
  have hinit : r₂.nextFresh .init ≤ 2 ^ 16 := by rw [hn₂]; decide
  have hs₃ : ((({ r₂.con with ackPackets := r₂.con.ackPackets ++ [⟨.init, ⟨0, 0⟩⟩] } :
      Connection).removeAcked 0 ⟨0, 0⟩ 0).resender.fullSendQueue 0).entries =
      [(⟨0, 1⟩, ⟨0, ⟨0, 0, ⟨.init, ⟨0, 1⟩⟩⟩⟩)] := by
    rw [Connection.removeAcked_fullSendQueue, Function.update_same, Store.erase_head hs₂]
  refine ⟨_, _, hr₃, hc₂, hinit, ?_, by rw [Store.keys, hs₃]; rfl,
    Step.ack .init _ 0 (Int.le_refl _)
      (Connection.ackPacket_of_eq (rfl : packetTypeToIndex .init = .ok 0) hs₃ rfl 0),
    by rw [Connection.removeAcked_ackPackets]; rfl,
    reachable_acks_in_order hr₃ hc₂ hinit⟩
  simp [emitted, ha₂]

/-- Acknowledging `Init` packets 1 and then 0 emits id 0 with nothing outstanding, while the
codec's next `Init` id is 2. -/
theorem ackPacket_init_reversed_emits_acked (cubic : Cubic) (now : Int) :
    ∃ r r', Reachable cubic 50 now r ∧ Step cubic r r' ∧ r.consecutive = true ∧
      r.nextFresh .init = 2 ∧ r.con.outgoingPIds .init = ⟨0, 2⟩ ∧
      r'.con.ackPackets = r.con.ackPackets ++ [⟨.init, ⟨0, 0⟩⟩] ∧
      (r'.con.resender.fullSendQueue 0).keys = [] := by
  obtain ⟨r₂, hr₂, hc₂, hn₂, hk₂, ho₂, -, hs₂⟩ := twoInits_sent cubic now
  have s₃ : Step cubic r₂ _ := Step.ack .init 1 now (hk₂ ▸ Int.le_refl _)
    (Connection.ackPacket_of_ne (rfl : packetTypeToIndex .init = .ok 0) hs₂ (by decide) now)
  have hs₃ : ((r₂.con.removeAcked 0 (Connection.reconstruct ⟨0, 0⟩ 1) now).resender.fullSendQueue
      0).entries = [(⟨0, 0⟩, ⟨now, ⟨now, 0, ⟨.init, ⟨0, 0⟩⟩⟩⟩)] := by
    rw [Connection.removeAcked_fullSendQueue, Function.update_same]
    show List.filter _ _ = _
    rw [hs₂]
    rfl
  refine ⟨_, _, hr₂.tail s₃,
    Step.ack .init _ now (Int.le_refl _)
      (Connection.ackPacket_of_eq (rfl : packetTypeToIndex .init = .ok 0) hs₃ rfl now), hc₂, hn₂,
    ?_, ?_, ?_⟩
  · rw [Connection.removeAcked_outgoingPIds, ho₂]
  · rw [Connection.removeAcked_ackPackets]
    rfl
  · rw [Connection.removeAcked_fullSendQueue, Function.update_same, Store.keys, Store.erase_head hs₃]
    rfl

theorem ackPacket_init_out_of_order :
    ∃ r r', Reachable (fun _ _ => 1) 50 0 r ∧ Step (fun _ _ => 1) r r' ∧ r.consecutive = true ∧
      r.nextFresh .init = 2 ∧ r.con.outgoingPIds .init = ⟨0, 2⟩ ∧
      r'.con.ackPackets = r.con.ackPackets ++ [⟨.init, ⟨0, 0⟩⟩] ∧
      (r'.con.resender.fullSendQueue 0).keys = [] :=
  ackPacket_init_reversed_emits_acked _ 0

end TsClient.Resend
