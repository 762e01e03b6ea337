import TsClient.Resend.Schedule

/-!
What a pass of `poll_resend` sends. The schedule is a `BinaryHeap`, and a pass looks only at
its top, a greatest entry under `Ord for SendRecordId`: a never-sent entry outranks a sent one,
and among sent ones the earlier `last` outranks the later. A pass sends a record sent before
only once it is due, at `last ≤ now - rto`. When it stops at a top that was sent and is not yet
due, no entry of the schedule is due or never sent, and neither is any scheduled record
(`pollPass_due`).

A pass reads the resender's state only for the timeout, so a `Disconnected` resender still
sends the records of its schedule (`pollPass_sends_when_disconnected`).
-/

namespace TsClient.Resend

theorem SendRecordId.sent_of_cmp_ne_lt {x y : SendRecordId} (hx : x.tries ≠ 0)
    (h : x.cmp y ≠ .lt) : y.tries ≠ 0 ∧ x.last ≤ y.last := by
  unfold SendRecordId.cmp at h
  rw [if_neg hx] at h
  split_ifs at h with hy
  · exact absurd rfl h
  · refine ⟨hy, Int.not_lt.mp fun hlt => h ?_⟩
    rw [show compare x.last y.last = .gt from compare_gt_iff_gt.mpr hlt]
    rfl

/-- When the top of the schedule was sent and is not due, no entry is due or never sent. -/
theorem IsTop.not_due {q : List SendRecordId} {top : Nat} (htop : IsTop q top) {x : SendRecordId}
    (hx : q[top]? = some x) {t : Int} (hwait : x.tries ≠ 0 ∧ t < x.last) :
    ∀ y ∈ q, y.tries ≠ 0 ∧ t < y.last := by
  obtain ⟨x', hx', hmax⟩ := htop
  obtain rfl := Option.some_inj.mp (hx'.symm.trans hx)
  intro y hy
  obtain ⟨hy0, hle⟩ := SendRecordId.sent_of_cmp_ne_lt hwait.1 (hmax y hy)
  exact ⟨hy0, Int.lt_of_lt_of_le hwait.2 hle⟩

/-- Under the schedule invariant, a pass at the top resends a record only when it is due; a pass
whose socket takes the datagram stops only when no scheduled entry or record is due or never
sent, having sent and popped nothing; and a stored top that is due or never sent is sent. -/
theorem pollPass_due {cubic : Cubic} {s : Resender} {nf : PacketType → Nat} {log : List PacketId}
    (h : ScheduleInv s nf log) {now : Int} {top : Nat} (htop : IsTop s.sendQueue top) :
    (∀ sock timerReady p, s.pollPass cubic now top sock timerReady = .ok p → ∀ id ∈ p.sent,
      ∃ i r, packetTypeToIndex id.packetType = .ok i ∧ (s.fullSendQueue i).get id.part = some r ∧
        (r.id.tries ≠ 0 → r.id.last ≤ now - s.rto)) ∧
    (∀ timerReady p, s.pollPass cubic now top (.ready (.ok ())) timerReady = .ok p →
      p.continues = false → p.resender = s ∧ p.sent = none ∧
        (∀ y ∈ s.sendQueue, y.tries ≠ 0 ∧ now - s.rto < y.last) ∧
        ∀ j, ∀ e ∈ (s.fullSendQueue j).entries, e.1.seq < (s.sendQueueIndices j).seq →
          e.2.id.tries ≠ 0 ∧ now - s.rto < e.2.id.last) ∧
    ∀ x i r, s.sendQueue[top]? = some x → packetTypeToIndex x.id.packetType = .ok i →
      (s.fullSendQueue i).get x.id.part = some r → (x.tries = 0 ∨ x.last ≤ now - s.rto) →
      (now - r.sent).toNat ≤ s.getTimeout → ∀ timerReady,
        ∃ p, s.pollPass cubic now top (.ready (.ok ())) timerReady = .ok p ∧ p.sent = some x.id := by
  refine ⟨fun sock timerReady p hp id hid => ?_, fun timerReady p hp hc => ?_,
    fun _ _ _ => Resender.pollPass_sends⟩
  · rcases Resender.pollPass_ok hp with ⟨-, hs, -⟩ | ⟨-, -, -, -, -, -, hs, -⟩ |
      ⟨x, i, r, hx, hi, hget, hdue, hs, -⟩ <;> rw [hs] at hid <;> cases hid
    obtain ⟨rfl, -⟩ := h.entry_eq_stored (List.getElem?_mem hx) hi hget
    exact ⟨i, r, hi, hget, hdue⟩
  · obtain ⟨hres, hsent, hnone | ⟨x, hx, hwait⟩⟩ := Resender.pollPass_stop hp hc
    · obtain ⟨x, hx, -⟩ := htop
      simp [hx] at hnone
    have hall := htop.not_due hx hwait
    refine ⟨hres, hsent, hall, fun j e he hlt => hall _ ?_⟩
    -- a scheduled record has its entry in the schedule
    have hsched := h.scheduled j e he
    rw [if_pos hlt] at hsched
    exact (List.mem_filter.mp (hsched ▸ List.mem_singleton_self _)).1

/-- A resender whose schedule holds the `Command` packet 0, sent once at instant 0. -/
def sentOnce : Resender :=
  { Resender.default 50 0 with
    sendQueue := [⟨0, 1, command0⟩]
    sendQueueIndices := Function.update (fun _ => .zero) 1 ⟨0, 1⟩
    fullSendQueue := Function.update (fun _ => Store.empty) 1
      (Store.empty.insert .zero ⟨0, ⟨0, 1, command0⟩⟩) }

theorem scheduleInv_sentOnce :
    ScheduleInv sentOnce (Function.update (fun _ => 0) .command 1) [command0] :=
  ⟨⟨by decide, by decide⟩, by decide, by decide, by decide, by decide, by decide⟩

theorem pollPass_due_sentOnce :
    ScheduleInv sentOnce (Function.update (fun _ => 0) .command 1) [command0] ∧
      IsTop sentOnce.sendQueue 0 ∧
      sentOnce.pollPass (fun _ _ => 1) 0 0 (.ready (.ok ())) false = .ok ⟨false, sentOnce, none, false⟩ ∧
      ((∀ sock timerReady p, sentOnce.pollPass (fun _ _ => 1) 0 0 sock timerReady = .ok p →
        ∀ id ∈ p.sent, ∃ i r, packetTypeToIndex id.packetType = .ok i ∧
          (sentOnce.fullSendQueue i).get id.part = some r ∧
          (r.id.tries ≠ 0 → r.id.last ≤ (0 : Int) - sentOnce.rto)) ∧
      (∀ timerReady p, sentOnce.pollPass (fun _ _ => 1) 0 0 (.ready (.ok ())) timerReady = .ok p →
        p.continues = false → p.resender = sentOnce ∧ p.sent = none ∧
          (∀ y ∈ sentOnce.sendQueue, y.tries ≠ 0 ∧ (0 : Int) - sentOnce.rto < y.last) ∧
          ∀ j, ∀ e ∈ (sentOnce.fullSendQueue j).entries,
            e.1.seq < (sentOnce.sendQueueIndices j).seq →
            e.2.id.tries ≠ 0 ∧ (0 : Int) - sentOnce.rto < e.2.id.last) ∧
      ∀ x i r, sentOnce.sendQueue[0]? = some x → packetTypeToIndex x.id.packetType = .ok i →
        (sentOnce.fullSendQueue i).get x.id.part = some r →
        (x.tries = 0 ∨ x.last ≤ (0 : Int) - sentOnce.rto) →
        ((0 : Int) - r.sent).toNat ≤ sentOnce.getTimeout → ∀ timerReady,
          ∃ p, sentOnce.pollPass (fun _ _ => 1) 0 0 (.ready (.ok ())) timerReady = .ok p ∧
            p.sent = some x.id) :=
  ⟨scheduleInv_sentOnce, ⟨_, rfl, by decide⟩, rfl,
    pollPass_due scheduleInv_sentOnce ⟨_, rfl, by decide⟩⟩

/-- A pass sends the top entry's record when the resender is `Disconnected`, as in any other
state, and reports it sent. -/
theorem pollPass_sends_when_disconnected {cubic : Cubic} {s : Resender} {now : Int} {top : Nat}
    {x : SendRecordId} {i : Fin 3} {r : SendRecord} (hst : s.state = .disconnected)
    (hx : s.sendQueue[top]? = some x) (hi : packetTypeToIndex x.id.packetType = .ok i)
    (hr : (s.fullSendQueue i).get x.id.part = some r) (hnew : x.tries = 0)
    (hage : (now - r.sent).toNat ≤ s.config.disconnectTimeout) (timerReady : Bool) :
    ∃ p, s.pollPass cubic now top (.ready (.ok ())) timerReady = .ok p ∧ p.sent = some x.id := by
  have htimeout : s.getTimeout = s.config.disconnectTimeout := by simp [Resender.getTimeout, hst]
  exact Resender.pollPass_sends hx hi hr (.inl hnew) (htimeout ▸ hage) timerReady

def disconnectedNew : Resender :=
  { Resender.default 50 0 with
    state := .disconnected
    sendQueue := [⟨0, 0, command0⟩]
    sendQueueIndices := Function.update (fun _ => .zero) 1 ⟨0, 1⟩
    fullSendQueue := Function.update (fun _ => Store.empty) 1
      (Store.empty.insert .zero ⟨0, ⟨0, 0, command0⟩⟩) }

theorem pollPass_sends_when_disconnected_new :
    disconnectedNew.state = .disconnected ∧
      disconnectedNew.sendQueue[0]? = some ⟨0, 0, command0⟩ ∧
      packetTypeToIndex command0.packetType = .ok 1 ∧
      (disconnectedNew.fullSendQueue 1).get command0.part = some ⟨0, ⟨0, 0, command0⟩⟩ ∧
      (0 - (0 : Int)).toNat ≤ disconnectedNew.config.disconnectTimeout ∧
      ∃ p, disconnectedNew.pollPass (fun _ _ => 1) 0 0 (.ready (.ok ())) false = .ok p ∧
        p.sent = some command0 :=
  ⟨rfl, rfl, rfl, by decide, by decide,
    @pollPass_sends_when_disconnected _ disconnectedNew 0 0 ⟨0, 0, command0⟩ 1 ⟨0, ⟨0, 0, command0⟩⟩
      rfl rfl rfl (by decide) rfl (by decide) false⟩

end TsClient.Resend
