import TsClient.Resend.Fill

/-!
`send_packet` and `ack_packet`. `send_packet` stores a record under the packet's id and refills
the schedule. `ack_packet` looks at the first stored record of the packet's type: when the
acknowledged packet id is its packet id, it emits an `AckPacket` item for everything before the
next outstanding id and removes that record; otherwise it reconstructs the generation the peer
meant and removes the record of that id, if there is one.

Within a map whose ids span fewer than `2^16` ids, the record removed is the only one with the
acknowledged packet id (`ackPacket_removes_acked`). The `Init` branch adds one to the packet id
with a plain `u16` addition, which panics when the only `Init` record has packet id 65535
(`ackPacket_init_last_panics`).
-/

namespace TsClient.Resend

namespace Resender

/-- `send_packet`: store a record of a packet never sent, then refill the schedule. -/
def sendPacket (cubic : Cubic) (s : Resender) (p : PacketId) (now : Int) : Except Failure Resender :=
  let s := { s with lastSend := now }
  let record : SendRecord := { sent := now, id := { last := now, tries := 0, id := p } }
  match packetTypeToIndex record.id.id.packetType with
  | .error f => .error f
  | .ok i =>
    let store := (s.fullSendQueue i).insert record.id.id.part record
    .ok (fillUpSendQueue cubic { s with fullSendQueue := Function.update s.fullSendQueue i store } now).1

theorem sendPacket_ok {cubic : Cubic} {s s' : Resender} {p : PacketId} {now : Int}
    (h : s.sendPacket cubic p now = .ok s') :
    ∃ i, packetTypeToIndex p.packetType = .ok i ∧
      s' = (fillUpSendQueue cubic { s with
        lastSend := now
        fullSendQueue := Function.update s.fullSendQueue i
          ((s.fullSendQueue i).insert p.part ⟨now, ⟨now, 0, p⟩⟩) } now).1 := by
  unfold sendPacket at h
  dsimp only at h
  split at h
  · cases h
  next i hi =>
    cases h
    exact ⟨i, hi, rfl⟩

end Resender

/-- The parts of `Connection` the resender uses. -/
structure Connection where
  resender : Resender
  /-- Modelled from the spec: `codec.outgoing_p_ids`, the id the codec gives the next packet of
  each type. -/
  outgoingPIds : PacketType → PartialPacketId
  /-- The `StreamItem::AckPacket` items pushed to `stream_items`, oldest first. -/
  ackPackets : List PacketId

namespace Connection

/-- The id past the acknowledged ones: the next record's, `p_id + 1` for `Init`, or `next`. -/
def ackedBefore (con : Connection) (pType : PacketType) (pId : UInt16) :
    List (PartialPacketId × SendRecord) → Except Failure PartialPacketId
  | (_, rec2) :: _ => .ok rec2.id.id.part
  | [] =>
    if pType = .init then
      match addU16 pId 1 with
      | .error f => .error f
      | .ok next => .ok ⟨0, next⟩
    else .ok (con.outgoingPIds pType)

theorem ackedBefore_eq_error {con : Connection} {pType : PacketType} {pId : UInt16} {rest}
    {f : Failure} (h : con.ackedBefore pType pId rest = .error f) :
    rest = [] ∧ pType = .init ∧ pId = 65535 := by
  cases rest with
  | cons x _ => obtain ⟨_, _⟩ := x; cases h
  | nil =>
    simp only [ackedBefore] at h
    split_ifs at h with hinit
    unfold addU16 at h
    split_ifs at h with hlt
    have := pId.toNat_lt
    rw [show (1 : UInt16).toNat = 1 from rfl] at hlt
    exact ⟨rfl, hinit, UInt16.ext_iff.mpr (by show _ = 65535; omega)⟩

/-- The id `ack_packet` removes: in the first id's generation, or the next when `p_id` wrapped. -/
def reconstruct (first : PartialPacketId) (pId : UInt16) : PartialPacketId :=
  ⟨if pId < first.packetId then first.generationId + 1 else first.generationId, pId⟩

/-- The end of `ack_packet`: remove the record; a record sent once feeds `update_srtt`. -/
def removeAcked (con : Connection) (i : Fin 3) (id : PartialPacketId) (now : Int) : Connection :=
  match (con.resender.fullSendQueue i).remove id with
  | (some record, store) =>
    let r := { con.resender with
      fullSendQueue := Function.update con.resender.fullSendQueue i store }
    { con with resender := if record.id.tries = 1 then r.updateSrtt (now - record.sent).toNat else r }
  | (none, _) => con

def ackPacket (con : Connection) (pType : PacketType) (pId : UInt16) (now : Int) :
    Except Failure Connection :=
  match packetTypeToIndex pType with
  | .error f => .error f
  | .ok i =>
    match (con.resender.fullSendQueue i).entries with
    | [] => .ok con
    | (first, _) :: rest =>
      if first.packetId = pId then
        match con.ackedBefore pType pId rest with
        | .error f => .error f
        | .ok next =>
          .ok ({ con with ackPackets := con.ackPackets ++ [PacketId.mk pType (next.sub 1)] }.removeAcked
            i first now)
      else .ok (con.removeAcked i (reconstruct first pId) now)

/-- `ack_packet` removes a record, or emits an acknowledgement and removes the first record. -/
theorem ackPacket_ok {con con' : Connection} {pType : PacketType} {pId : UInt16} {now : Int}
    (h : con.ackPacket pType pId now = .ok con') :
    ∃ i, packetTypeToIndex pType = .ok i ∧
      ((∃ k, con' = con.removeAcked i k now) ∨
        ∃ first r rest next, (con.resender.fullSendQueue i).entries = (first, r) :: rest ∧
          first.packetId = pId ∧ con.ackedBefore pType pId rest = .ok next ∧
          con' = { con with ackPackets := con.ackPackets ++ [PacketId.mk pType (next.sub 1)] }.removeAcked
            i first now) := by
  unfold ackPacket at h
  split at h
  · cases h
  next i hi =>
    refine ⟨i, hi, ?_⟩
    split at h
    next hs =>
      cases h
      refine .inl ⟨.zero, ?_⟩
      unfold removeAcked Store.remove Store.get
      rw [hs]
      rfl
    next first r rest hs =>
      split_ifs at h with hfirst
      · split at h
        · cases h
        next next hnext =>
          cases h
          exact .inr ⟨first, r, rest, next, hs, hfirst, hnext, rfl⟩
      · cases h
        exact .inl ⟨_, rfl⟩

/-! ### What an acknowledgement removes -/

theorem removeAcked_fullSendQueue (con : Connection) (i : Fin 3) (id : PartialPacketId) (now : Int) :
    (con.removeAcked i id now).resender.fullSendQueue =
      Function.update con.resender.fullSendQueue i ((con.resender.fullSendQueue i).erase id) := by
  unfold removeAcked
  split
  · rename_i record store h
    obtain rfl : (con.resender.fullSendQueue i).erase id = store := (Prod.mk.inj h).2
    split_ifs <;> rfl
  · rename_i h
    rw [Store.erase_of_get_eq_none (Prod.mk.inj h).1, Function.update_eq_self]

theorem removeAcked_resender (con : Connection) (i : Fin 3) (id : PartialPacketId) (now : Int) :
    ∃ config, (con.removeAcked i id now).resender = { con.resender with
      fullSendQueue := Function.update con.resender.fullSendQueue i
        ((con.resender.fullSendQueue i).erase id)
      config } := by
  unfold removeAcked
  split
  next record store h =>
    obtain rfl : (con.resender.fullSendQueue i).erase id = store := (Prod.mk.inj h).2
    split_ifs
    · exact ⟨_, rfl⟩
    · exact ⟨_, rfl⟩
  next h =>
    rw [Store.erase_of_get_eq_none (Prod.mk.inj h).1, Function.update_eq_self]
    exact ⟨_, rfl⟩

@[simp] theorem removeAcked_outgoingPIds (con : Connection) (i : Fin 3) (id : PartialPacketId)
    (now : Int) : (con.removeAcked i id now).outgoingPIds = con.outgoingPIds := by
  unfold removeAcked
  split <;> rfl

@[simp] theorem removeAcked_ackPackets (con : Connection) (i : Fin 3) (id : PartialPacketId)
    (now : Int) : (con.removeAcked i id now).ackPackets = con.ackPackets := by
  unfold removeAcked
  split <;> rfl

@[simp] theorem ackPacket_outgoingPIds {con con' : Connection} {pType : PacketType} {pId : UInt16}
    {now : Int} (h : con.ackPacket pType pId now = .ok con') : con'.outgoingPIds = con.outgoingPIds := by
  obtain ⟨i, -, ⟨k, rfl⟩ | ⟨k, -, -, -, -, -, -, rfl⟩⟩ := ackPacket_ok h <;> simp

theorem ackPacket_of_ne {con : Connection} {pType : PacketType} {i : Fin 3}
    {first : PartialPacketId} {r : SendRecord} {rest} {pId : UInt16}
    (hi : packetTypeToIndex pType = .ok i)
    (hs : (con.resender.fullSendQueue i).entries = (first, r) :: rest) (hne : first.packetId ≠ pId)
    (now : Int) : con.ackPacket pType pId now = .ok (con.removeAcked i (reconstruct first pId) now) := by
  simp [ackPacket, hi, hs, hne]

theorem ackPacket_of_eq {con : Connection} {pType : PacketType} {i : Fin 3}
    {first : PartialPacketId} {r : SendRecord} {rest} {next : PartialPacketId}
    (hi : packetTypeToIndex pType = .ok i)
    (hs : (con.resender.fullSendQueue i).entries = (first, r) :: rest)
    (hn : con.ackedBefore pType first.packetId rest = .ok next) (now : Int) :
    con.ackPacket pType first.packetId now = .ok ({ con with
      ackPackets := con.ackPackets ++ [PacketId.mk pType (next.sub 1)] }.removeAcked i first now) := by
  simp [ackPacket, hi, hs, hn]

theorem ackPacket_resender {con con' : Connection} {pType : PacketType} {pId : UInt16} {now : Int}
    (h : con.ackPacket pType pId now = .ok con') :
    ∃ i k config, con'.resender = { con.resender with
      fullSendQueue := Function.update con.resender.fullSendQueue i
        ((con.resender.fullSendQueue i).erase k)
      config } := by
  obtain ⟨i, -, ⟨k, rfl⟩ | ⟨k, -, -, -, -, -, -, rfl⟩⟩ := ackPacket_ok h <;>
    obtain ⟨config, hc⟩ := removeAcked_resender _ i k now <;>
    exact ⟨i, k, config, hc⟩

/-- The keys of a map lie within `2^16` ids from its first key. -/
def Within (s : Store) : Prop :=
  match s.entries with
  | [] => True
  | (first, _) :: _ => ∀ e ∈ s.entries, e.1.seq < first.seq + 2 ^ 16

instance (s : Store) : Decidable (Within s) :=
  match h : s.entries with
  | [] => isTrue (by simp [Within, h])
  | (first, _) :: _ =>
    decidable_of_iff (∀ e ∈ s.entries, e.1.seq < first.seq + 2 ^ 16) (by simp [Within, h])

theorem reconstruct_spec {first k : PartialPacketId} {pId : UInt16} (hk : k.packetId = pId)
    (hlo : first.seq ≤ k.seq) (hhi : k.seq < first.seq + 2 ^ 16) : reconstruct first pId = k := by
  have hf := first.packetId.toNat_lt
  have hg := first.generationId.toNat_lt
  have hkg := k.generationId.toNat_lt
  have hkp := k.packetId.toNat_lt
  apply PartialPacketId.seq_injective
  simp only [PartialPacketId.seq, reconstruct] at hlo hhi ⊢
  subst hk
  split_ifs with hlt
  · rw [UInt16.lt_iff_toNat_lt] at hlt
    rw [UInt32.toNat_add, show (1 : UInt32).toNat = 1 from rfl, UInt32.size]
    have : k.generationId.toNat = first.generationId.toNat + 1 := by omega
    omega
  · rw [UInt16.lt_iff_toNat_lt] at hlt
    have : k.generationId.toNat = first.generationId.toNat := by omega
    omega

theorem lt_of_within {s : Store} (hw : Within s) {first : PartialPacketId} {r : SendRecord} {rest}
    (hs : s.entries = (first, r) :: rest) {e : PartialPacketId × SendRecord} (he : e ∈ s.entries) :
    e.1.seq < first.seq + 2 ^ 16 := by
  unfold Within at hw
  rw [hs] at hw he
  exact hw e he

theorem key_eq_of_packetId_eq {s : Store} (hw : Within s) {a b : PartialPacketId × SendRecord}
    (ha : a ∈ s.entries) (hb : b ∈ s.entries) (h : a.1.packetId = b.1.packetId) : a = b := by
  cases hs : s.entries with
  | nil => simp [hs] at ha
  | cons e rest =>
    apply Store.eq_of_key_eq ha hb
    have hsa := lt_of_within hw hs ha
    have hsb := lt_of_within hw hs hb
    have hma := Store.head_le hs ha
    have hmb := Store.head_le hs hb
    rcases Nat.le_total a.1.seq b.1.seq with hab | hab
    · exact PartialPacketId.eq_of_packetId_eq h hab (by omega)
    · exact (PartialPacketId.eq_of_packetId_eq h.symm hab (by omega)).symm

theorem eq_first_iff {s : Store} (hw : Within s) {first : PartialPacketId} {r : SendRecord} {rest}
    (hs : s.entries = (first, r) :: rest) {e : PartialPacketId × SendRecord} (he : e ∈ s.entries) :
    e.1 = first ↔ e.1.packetId = first.packetId := by
  refine ⟨fun h => h ▸ rfl, fun h => ?_⟩
  exact (PartialPacketId.eq_of_packetId_eq h.symm (Store.head_le hs he) (lt_of_within hw hs he)).symm

theorem removeAcked_eq_filter {con c : Connection} {i : Fin 3} {k : PartialPacketId}
    {pId : UInt16} (now : Int)
    (hk : ∀ e ∈ (con.resender.fullSendQueue i).entries, e.1 = k ↔ e.1.packetId = pId)
    (hc : c.resender.fullSendQueue = con.resender.fullSendQueue) :
    ((c.removeAcked i k now).resender.fullSendQueue i).entries =
        (con.resender.fullSendQueue i).entries.filter (·.1.packetId != pId) ∧
      ∀ j, j ≠ i → (c.removeAcked i k now).resender.fullSendQueue j = con.resender.fullSendQueue j := by
  rw [removeAcked_fullSendQueue, hc]
  refine ⟨?_, fun j hj => Function.update_noteq hj _ _⟩
  rw [Function.update_same]
  refine List.filter_congr fun e he => ?_
  rw [Bool.eq_iff_iff]
  simp only [bne_iff_ne, ne_eq, hk e he]

/-- Within `2^16` ids from its first key, an acknowledgement removes exactly the records with
the acknowledged packet id from its type's map, and nothing else. It returns unless it
acknowledges packet id 65535 of the only `Init` record. -/
theorem ackPacket_removes_acked {con : Connection} {pType : PacketType} {i : Fin 3}
    (hi : packetTypeToIndex pType = .ok i) (hw : Within (con.resender.fullSendQueue i))
    (pId : UInt16) (now : Int) :
    (∀ a ∈ (con.resender.fullSendQueue i).entries, ∀ b ∈ (con.resender.fullSendQueue i).entries,
        a.1.packetId = pId → b.1.packetId = pId → a = b) ∧
      (∀ f, con.ackPacket pType pId now = .error f →
        pType = .init ∧ pId = 65535 ∧ ∃ first r, (con.resender.fullSendQueue i).entries = [(first, r)] ∧
          first.packetId = 65535) ∧
      ∀ con', con.ackPacket pType pId now = .ok con' →
        (con'.resender.fullSendQueue i).entries =
            (con.resender.fullSendQueue i).entries.filter (·.1.packetId != pId) ∧
          ∀ j, j ≠ i → con'.resender.fullSendQueue j = con.resender.fullSendQueue j := by
  refine ⟨fun a ha b hb hpa hpb => key_eq_of_packetId_eq hw ha hb (hpa.trans hpb.symm), ?_⟩
  unfold ackPacket
  rw [hi]
  dsimp only
  split
  case h_1 hs =>
    refine ⟨fun f h => (nomatch h), fun con' h => ?_⟩
    cases h
    exact ⟨by rw [hs]; rfl, fun _ _ => rfl⟩
  case h_2 first r rest hs =>
    split_ifs with hfirst
    · subst hfirst
      split
      next f hf =>
        refine ⟨fun f' _ => ?_, fun con' h => (nomatch h)⟩
        obtain ⟨rfl, hinit, hp⟩ := ackedBefore_eq_error hf
        exact ⟨hinit, hp, first, r, hs, hp⟩
      next next _ =>
        refine ⟨fun f h => (nomatch h), fun con' h => ?_⟩
        cases h
        exact removeAcked_eq_filter now (fun e he => eq_first_iff hw hs he) rfl
    · refine ⟨fun f h => (nomatch h), fun con' h => ?_⟩
      cases h
      refine removeAcked_eq_filter now (fun e he => ⟨fun h => h ▸ rfl, fun h => ?_⟩) rfl
      exact (reconstruct_spec h (Store.head_le hs he) (lt_of_within hw hs he)).symm

/-- The `Command` records 65535 of generation 0 and 0 of generation 1, across the wrap. -/
def acrossWrap : Connection where
  resender := { Resender.default 50 0 with
    fullSendQueue := Function.update (fun _ => Store.empty) 1
      ((Store.empty.insert ⟨0, 65535⟩ ⟨0, ⟨0, 1, ⟨.command, ⟨0, 65535⟩⟩⟩⟩).insert ⟨1, 0⟩
        ⟨0, ⟨0, 1, ⟨.command, ⟨1, 0⟩⟩⟩⟩) }
  outgoingPIds := fun _ => ⟨1, 1⟩
  ackPackets := []

theorem ackPacket_removes_acked_acrossWrap :
    packetTypeToIndex .command = .ok 1 ∧ Within (acrossWrap.resender.fullSendQueue 1) ∧
      (acrossWrap.resender.fullSendQueue 1).entries.filter (·.1.packetId != 0) =
        [(⟨0, 65535⟩, ⟨0, ⟨0, 1, ⟨.command, ⟨0, 65535⟩⟩⟩⟩)] ∧
      (∃ con', acrossWrap.ackPacket .command 0 0 = .ok con') ∧
      ((∀ a ∈ (acrossWrap.resender.fullSendQueue 1).entries,
          ∀ b ∈ (acrossWrap.resender.fullSendQueue 1).entries,
          a.1.packetId = 0 → b.1.packetId = 0 → a = b) ∧
        (∀ f, acrossWrap.ackPacket .command 0 0 = .error f →
          PacketType.command = .init ∧ (0 : UInt16) = 65535 ∧
            ∃ first r, (acrossWrap.resender.fullSendQueue 1).entries = [(first, r)] ∧
              first.packetId = 65535) ∧
        ∀ con', acrossWrap.ackPacket .command 0 0 = .ok con' →
          (con'.resender.fullSendQueue 1).entries =
              (acrossWrap.resender.fullSendQueue 1).entries.filter (·.1.packetId != 0) ∧
            ∀ j, j ≠ 1 → con'.resender.fullSendQueue j = acrossWrap.resender.fullSendQueue j) :=
  have hw : Within (acrossWrap.resender.fullSendQueue 1) := by decide
  ⟨rfl, hw, by decide, ⟨_, rfl⟩, @ackPacket_removes_acked acrossWrap .command 1 rfl hw 0 0⟩

/-- Acknowledging packet id 65535 of the only `Init` record panics at `p_id + 1`. -/
theorem ackPacket_init_last_panics {con : Connection} {first : PartialPacketId} {r : SendRecord}
    (hs : (con.resender.fullSendQueue 0).entries = [(first, r)]) (hp : first.packetId = 65535)
    (now : Int) : con.ackPacket .init 65535 now = .error (.panic "attempt to add with overflow") := by
  simp [ackPacket, show packetTypeToIndex .init = .ok 0 from rfl, hs, hp, ackedBefore, addU16]

def lastInit : Connection where
  resender := { Resender.default 50 0 with
    fullSendQueue := fun i => if i = 0 then
      ⟨[(⟨0, 65535⟩, ⟨0, ⟨0, 1, ⟨.init, ⟨0, 65535⟩⟩⟩⟩)], List.pairwise_singleton _ _⟩ else Store.empty }
  outgoingPIds := fun _ => ⟨1, 0⟩
  ackPackets := []

theorem ackPacket_init_65535_panics :
    (lastInit.resender.fullSendQueue 0).entries = [(⟨0, 65535⟩, ⟨0, ⟨0, 1, ⟨.init, ⟨0, 65535⟩⟩⟩⟩)] ∧
      (⟨0, 65535⟩ : PartialPacketId).packetId = 65535 ∧
      lastInit.ackPacket .init 65535 0 = .error (.panic "attempt to add with overflow") :=
  ⟨rfl, rfl, ackPacket_init_last_panics rfl rfl 0⟩

end Connection

end TsClient.Resend
