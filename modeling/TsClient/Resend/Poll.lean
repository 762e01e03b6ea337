import TsClient.Resend.Ack
import Mathlib.Logic.Relation

/-!
`poll_resend`, one pass of its loop at a time, and the runs of a connection: any interleaving
of `send_packet`, `ack_packet` and passes of `poll_resend`, at instants that never go back.

A pass peeks at the top of the schedule. An entry whose record was acknowledged is popped and
the schedule refilled. A record sent before and not yet due arms the timer. Otherwise the
record's datagram goes to the socket; once the socket takes it, the entry and the stored record
count one more try, and a second try is a loss: the round-trip estimate doubles, the window
shrinks to the current one and the schedule is rebuilt. The clock is read once per pass.

A run (`Run`) also records what the code does not store: the clock, the least id each packet
type may still use, whether every id so far was the codec's next one, the packets the socket
took, and the number of losses.
-/

namespace TsClient.Resend

/-- What `static_poll_send_udp_packet` answers: not ready, or the result of the send. -/
inductive SendResult
  | pending
  | ready (r : Except String Unit)

/-- How a pass of the loop of `poll_resend` ends: `continue` or `break`, and what it sent. -/
structure PollPass where
  continues : Bool
  resender : Resender
  sent : Option PacketId
  loss : Bool

namespace Resender

def rto (s : Resender) : Nat := min (s.config.srtt + s.config.srttDev * 4) 1000000000

/-- The congestion bookkeeping of a loss in `poll_resend`. -/
def recordLoss (cubic : Cubic) (s : Resender) (now : Int) : Resender :=
  let s := { s with config := { s.config with srtt := min (s.config.srtt * 2) s.getTimeout } }
  { s with wMax := s.getWindow cubic now, lastLoss := now, noCongestionSince := none }

def markSent (s : Resender) (top : Nat) (rec : SendRecordId) (i : Fin 3) (now : Int) : Resender :=
  let sentId : SendRecordId := { rec with last := now, tries := rec.tries + 1 }
  { s with
    sendQueue := s.sendQueue.set top sentId
    fullSendQueue := Function.update s.fullSendQueue i
      ((s.fullSendQueue i).update rec.id.part fun r => { r with id := sentId }) }

/-- One pass of the loop of `poll_resend`; `timerReady` is whether the rearmed timer is due. -/
def pollPass (cubic : Cubic) (s : Resender) (now : Int) (top : Nat) (sock : SendResult)
    (timerReady : Bool) : Except Failure PollPass :=
  match s.sendQueue[top]? with
  | none => .ok ⟨false, s, none, false⟩
  | some rec =>
    match packetTypeToIndex rec.id.packetType with
    | .error f => .error f
    | .ok i =>
      match (s.fullSendQueue i).get rec.id.part with
      | none =>
        .ok ⟨true, (fillUpSendQueue cubic { s with sendQueue := s.sendQueue.eraseIdx top } now).1,
          none, false⟩
      | some fullRec =>
        if rec.tries ≠ 0 ∧ now - s.rto < rec.last then .ok ⟨timerReady, s, none, false⟩
        else if s.getTimeout < (now - fullRec.sent).toNat then .error (.err "Connection timed out")
        else
          match sock with
          | .pending => .ok ⟨false, s, none, false⟩
          | .ready (.error e) => .error (.err e)
          | .ready (.ok ()) =>
            let s := s.markSent top rec i now
            if rec.tries + 1 ≠ 1 then
              .ok ⟨true, (rebuildSendQueue cubic (s.recordLoss cubic now) now).1, some rec.id, true⟩
            else .ok ⟨true, s, some rec.id, false⟩

/-- A pass stops or waits unchanged, pops an acknowledged entry, or sends a stored due record. -/
theorem pollPass_ok {cubic : Cubic} {s : Resender} {now : Int} {top : Nat} {sock : SendResult}
    {timerReady : Bool} {p : PollPass} (h : s.pollPass cubic now top sock timerReady = .ok p) :
    (p.resender = s ∧ p.sent = none ∧ p.loss = false) ∨
      (∃ rec i, s.sendQueue[top]? = some rec ∧ packetTypeToIndex rec.id.packetType = .ok i ∧
        (s.fullSendQueue i).get rec.id.part = none ∧
        p.resender = (fillUpSendQueue cubic { s with sendQueue := s.sendQueue.eraseIdx top } now).1 ∧
        p.sent = none ∧ p.loss = false) ∨
      (∃ rec i r, s.sendQueue[top]? = some rec ∧ packetTypeToIndex rec.id.packetType = .ok i ∧
        (s.fullSendQueue i).get rec.id.part = some r ∧ (rec.tries ≠ 0 → rec.last ≤ now - s.rto) ∧
        p.sent = some rec.id ∧
        (rec.tries = 0 ∧ p.resender = s.markSent top rec i now ∧ p.loss = false ∨
          rec.tries ≠ 0 ∧ p.loss = true ∧
            p.resender = (rebuildSendQueue cubic ((s.markSent top rec i now).recordLoss cubic now) now).1)) := by
  unfold pollPass at h
  split at h
  · cases h
    exact .inl ⟨rfl, rfl, rfl⟩
  next rec hrec =>
    split at h
    · cases h
    next i hi =>
      split at h
      next hget =>
        cases h
        exact .inr (.inl ⟨rec, i, hrec, hi, hget, rfl, rfl, rfl⟩)
      next r hget =>
        split at h
        · cases h
          exact .inl ⟨rfl, rfl, rfl⟩
        rename_i hwait
        have hdue : rec.tries ≠ 0 → rec.last ≤ now - s.rto := fun ht =>
          Int.not_lt.mp fun hlt => hwait ⟨ht, hlt⟩
        split at h
        · cases h
        split at h
        · cases h
          exact .inl ⟨rfl, rfl, rfl⟩
        · cases h
        split at h <;> cases h
        · exact .inr (.inr ⟨rec, i, r, hrec, hi, hget, hdue, rfl, .inr ⟨by omega, rfl, rfl⟩⟩)
        · exact .inr (.inr ⟨rec, i, r, hrec, hi, hget, hdue, rfl, .inl ⟨by omega, rfl, rfl⟩⟩)

theorem pollPass_stop {cubic : Cubic} {s : Resender} {now : Int} {top : Nat} {timerReady : Bool}
    {p : PollPass} (h : s.pollPass cubic now top (.ready (.ok ())) timerReady = .ok p)
    (hc : p.continues = false) :
    p.resender = s ∧ p.sent = none ∧ (s.sendQueue[top]? = none ∨
      ∃ x, s.sendQueue[top]? = some x ∧ x.tries ≠ 0 ∧ now - s.rto < x.last) := by
  unfold pollPass at h
  split at h
  · cases h
    exact ⟨rfl, rfl, .inl ‹_›⟩
  next rec hrec =>
    split at h
    · cases h
    split at h
    · cases h
      cases hc
    split at h
    · cases h
      exact ⟨rfl, rfl, .inr ⟨rec, hrec, ‹_›⟩⟩
    split at h
    · cases h
    dsimp only at h
    split at h <;> cases h <;> cases hc

theorem pollPass_sends {cubic : Cubic} {s : Resender} {now : Int} {top : Nat} {x : SendRecordId}
    {i : Fin 3} {r : SendRecord} (hx : s.sendQueue[top]? = some x)
    (hi : packetTypeToIndex x.id.packetType = .ok i) (hr : (s.fullSendQueue i).get x.id.part = some r)
    (hdue : x.tries = 0 ∨ x.last ≤ now - s.rto) (hage : (now - r.sent).toNat ≤ s.getTimeout)
    (timerReady : Bool) :
    ∃ p, s.pollPass cubic now top (.ready (.ok ())) timerReady = .ok p ∧ p.sent = some x.id := by
  have hwait : ¬(x.tries ≠ 0 ∧ now - s.rto < x.last) := fun ⟨h₁, h₂⟩ =>
    hdue.elim h₁ fun h => Int.not_lt.mpr h h₂
  simp only [pollPass, hx, hi, hr, if_neg hwait, if_neg (Nat.not_lt.mpr hage)]
  split_ifs
  exacts [⟨_, rfl, rfl⟩, ⟨_, rfl, rfl⟩]

@[simp] theorem markSent_keys (s : Resender) (top : Nat) (rec : SendRecordId) (i : Fin 3)
    (now : Int) (j : Fin 3) : ((s.markSent top rec i now).fullSendQueue j).keys = (s.fullSendQueue j).keys := by
  by_cases hj : j = i
  · subst hj
    simp [markSent]
  · simp [markSent, Function.update_noteq hj]

@[simp] theorem markSent_config (s : Resender) (top : Nat) (rec : SendRecordId) (i : Fin 3)
    (now : Int) : (s.markSent top rec i now).config = s.config := rfl

theorem pollPass_keys {cubic : Cubic} {s : Resender} {now : Int} {top : Nat} {sock : SendResult}
    {timerReady : Bool} {p : PollPass} (h : s.pollPass cubic now top sock timerReady = .ok p)
    (j : Fin 3) : (p.resender.fullSendQueue j).keys = (s.fullSendQueue j).keys := by
  rcases pollPass_ok h with ⟨hr, -, -⟩ | ⟨-, -, -, -, -, hr, -, -⟩ |
    ⟨x, i, r, -, -, -, -, -, ⟨-, hr, -⟩ | ⟨-, -, hr⟩⟩ <;> rw [hr]
  · rw [fillUpSendQueue_fullSendQueue]
  · exact markSent_keys s top x i now j
  · rw [rebuildSendQueue_fullSendQueue]
    exact markSent_keys s top x i now j

theorem pollPass_sent_stored {cubic : Cubic} {s : Resender} {now : Int} {top : Nat}
    {sock : SendResult} {timerReady : Bool} {p : PollPass}
    (h : s.pollPass cubic now top sock timerReady = .ok p) {id : PacketId} (hid : p.sent = some id) :
    ∃ i r, packetTypeToIndex id.packetType = .ok i ∧ (id.part, r) ∈ (s.fullSendQueue i).entries := by
  rcases pollPass_ok h with ⟨-, hs, -⟩ | ⟨-, -, -, -, -, -, hs, -⟩ | ⟨x, i, r, -, hi, hget, -, hs, -⟩ <;>
    rw [hs] at hid <;> cases hid
  exact ⟨i, r, hi, Store.get_eq_some.mp hget⟩

end Resender

/-- The entry at index `k` of the schedule is a greatest one, as `BinaryHeap::peek_mut` gives. -/
def IsTop (q : List SendRecordId) (k : Nat) : Prop :=
  ∃ x, q[k]? = some x ∧ ∀ y ∈ q, x.cmp y ≠ .lt

/-- A connection and what its run did so far, which the code does not store. -/
structure Run where
  con : Connection
  clock : Int
  nextFresh : PacketType → Nat
  consecutive : Bool
  sentLog : List PacketId
  losses : Nat

def Run.init (udpSinkCapacity : Nat) (now : Int) : Run where
  con := { resender := Resender.default udpSinkCapacity now, outgoingPIds := fun _ => .zero,
           ackPackets := [] }
  clock := now
  nextFresh := fun _ => 0
  consecutive := true
  sentLog := []
  losses := 0

/-- One call of a run, at an instant no earlier than the last: `send_packet` of a fresh id,
`ack_packet`, or a pass of `poll_resend`. A call that panics or fails ends the run. -/
inductive Step (cubic : Cubic) : Run → Run → Prop
  | send {r : Run} (p : PacketId) (now : Int) {s : Resender} :
      r.clock ≤ now → r.nextFresh p.packetType ≤ p.part.seq →
      r.con.resender.sendPacket cubic p now = .ok s →
      Step cubic r { r with
        con := { r.con with
          resender := s
          outgoingPIds := Function.update r.con.outgoingPIds p.packetType (p.part.add 1) }
        clock := now
        nextFresh := Function.update r.nextFresh p.packetType (p.part.seq + 1)
        consecutive := r.consecutive && p.part == r.con.outgoingPIds p.packetType }
  | ack {r : Run} (pType : PacketType) (pId : UInt16) (now : Int) {con : Connection} :
      r.clock ≤ now → r.con.ackPacket pType pId now = .ok con →
      Step cubic r { r with con, clock := now }
  | poll {r : Run} (now : Int) (top : Nat) (sock : SendResult) (timerReady : Bool) {p : PollPass} :
      r.clock ≤ now → (r.con.resender.sendQueue = [] ∨ IsTop r.con.resender.sendQueue top) →
      r.con.resender.pollPass cubic now top sock timerReady = .ok p →
      Step cubic r { r with
        con := { r.con with resender := p.resender }
        clock := now
        sentLog := r.sentLog ++ p.sent.toList
        losses := r.losses + if p.loss then 1 else 0 }

def Reachable (cubic : Cubic) (udpSinkCapacity : Nat) (now : Int) : Run → Prop :=
  Relation.ReflTransGen (Step cubic) (Run.init udpSinkCapacity now)

theorem le_update_succ {nf : PacketType → Nat} {t : PacketType} {n : Nat} (h : nf t ≤ n)
    (t' : PacketType) : nf t' ≤ Function.update nf t (n + 1) t' := by
  by_cases ht : t' = t
  · subst ht
    rw [Function.update_same]
    omega
  · rw [Function.update_noteq ht]

theorem Step.send_stores (cubic : Cubic) {r : Run} {p : PacketId} {now : Int} {i : Fin 3}
    (hi : packetTypeToIndex p.packetType = .ok i) (hclock : r.clock ≤ now)
    (hfresh : r.nextFresh p.packetType ≤ p.part.seq) :
    ∃ r', Step cubic r r' ∧
      r'.con.resender.fullSendQueue = Function.update r.con.resender.fullSendQueue i
        ((r.con.resender.fullSendQueue i).insert p.part ⟨now, ⟨now, 0, p⟩⟩) ∧
      r'.con.ackPackets = r.con.ackPackets ∧
      r'.con.outgoingPIds = Function.update r.con.outgoingPIds p.packetType (p.part.add 1) ∧
      r'.nextFresh = Function.update r.nextFresh p.packetType (p.part.seq + 1) ∧
      r'.consecutive = (r.consecutive && p.part == r.con.outgoingPIds p.packetType) ∧
      r'.clock = now :=
  ⟨_, @Step.send cubic r p now (Resender.fillUpSendQueue cubic { r.con.resender with
      lastSend := now
      fullSendQueue := Function.update r.con.resender.fullSendQueue i
        ((r.con.resender.fullSendQueue i).insert p.part ⟨now, ⟨now, 0, p⟩⟩) } now).1
      hclock hfresh (by unfold Resender.sendPacket; dsimp only; rw [hi]),
    Resender.fillUpSendQueue_fullSendQueue _ _ _, rfl, rfl, rfl, rfl, rfl⟩

theorem Step.nextFresh_le {cubic : Cubic} {r r' : Run} (h : Step cubic r r') (t : PacketType) :
    r.nextFresh t ≤ r'.nextFresh t := by
  cases h with
  | send p now _ hfresh _ => exact le_update_succ hfresh t
  | ack => exact Nat.le_refl _
  | poll => exact Nat.le_refl _

end TsClient.Resend
