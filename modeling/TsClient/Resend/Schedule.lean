import TsClient.Resend.Poll

/-!
The schedule invariant of the resender. For every reliable packet type, each record of its map
below the type's cursor has exactly one entry in the schedule, equal to the record's
`SendRecordId`; a record at or above the cursor has none; and a record's `tries` is the number
of times the socket took its datagram. Entries of acknowledged records may stay in the schedule
until a pass of `poll_resend` pops them.

`fill_up_send_queue` keeps the invariant because each iterator yields the records of its map
from the cursor on, in key order (`unscheduled_eq`): the record it pushes is the least one at
or above the cursor, and the cursor moves just past it. The invariant holds along every run in
which no packet gets the greatest id of its type (`reachable_schedule`). A packet with that id
wraps its type's cursor to zero while its record is scheduled (`sendPacket_max_wraps_cursor`).
-/

namespace TsClient.Resend

/-! ### Edits of the schedule -/

section Edits

variable {α : Type} {q : List α} {k : Nat} {x : α} {p : α → Bool}

theorem eq_take_cons_drop (h : q[k]? = some x) : q = q.take k ++ x :: q.drop (k + 1) := by
  obtain ⟨hk, rfl⟩ := List.getElem?_eq_some_iff.mp h
  rw [List.getElem_cons_drop, List.take_append_drop]

theorem set_eq_take_cons_drop (h : q[k]? = some x) (v : α) :
    q.set k v = q.take k ++ v :: q.drop (k + 1) := by
  obtain ⟨hk, -⟩ := List.getElem?_eq_some_iff.mp h
  rw [List.set_eq_take_append_cons_drop, if_pos hk]

theorem filter_set_of_not (h : q[k]? = some x) (hx : p x = false) {v : α} (hv : p v = false) :
    (q.set k v).filter p = q.filter p := by
  conv_rhs => rw [eq_take_cons_drop h]
  simp [set_eq_take_cons_drop h, List.filter_cons, hx, hv]

theorem filter_set_of_eq_singleton (h : q[k]? = some x) (hq : q.filter p = [x]) (hx : p x = true)
    {v : α} (hv : p v = true) : (q.set k v).filter p = [v] := by
  rw [eq_take_cons_drop h, List.filter_append, List.filter_cons, if_pos hx] at hq
  have hl := congrArg List.length hq
  simp only [List.length_append, List.length_cons, List.length_singleton, List.length_nil] at hl
  simp [set_eq_take_cons_drop h, List.filter_cons, hv,
    List.length_eq_zero.mp (show (q.take k |>.filter p).length = 0 by omega),
    List.length_eq_zero.mp (show (q.drop (k + 1) |>.filter p).length = 0 by omega)]

theorem filter_eraseIdx_of_not (h : q[k]? = some x) (hx : p x = false) :
    (q.eraseIdx k).filter p = q.filter p := by
  conv_rhs => rw [eq_take_cons_drop h]
  simp [List.eraseIdx_eq_take_drop_succ, List.filter_cons, hx]

end Edits

/-! ### The iterators of `fill_up_send_queue` -/

section Iterators

theorem dropWhile_eq_filter (c : PartialPacketId) : ∀ {l : List (PartialPacketId × SendRecord)},
    l.Pairwise (fun a b => a.1.seq < b.1.seq) → (∀ e ∈ l, e.2.id.id.part = e.1) →
    (l.map (·.2)).dropWhile (fun r => decide (r.id.id.part < c)) =
      (l.filter fun e => decide (c.seq ≤ e.1.seq)).map (·.2)
  | [], _, _ => rfl
  | e :: es, hs, hk => by
    obtain ⟨he, hes⟩ := List.pairwise_cons.mp hs
    rw [List.map_cons, List.dropWhile_cons, List.filter_cons, hk e (List.mem_cons_self _ _)]
    by_cases hlt : e.1.seq < c.seq
    · rw [if_pos (by simpa [PartialPacketId.lt_iff_seq_lt] using hlt),
        if_neg (by simpa using hlt)]
      exact dropWhile_eq_filter c hes fun x hx => hk x (List.mem_cons_of_mem _ hx)
    · have hrest : es.filter (fun e => decide (c.seq ≤ e.1.seq)) = es :=
        List.filter_eq_self.mpr fun x hx => by have := he x hx; simp only [decide_eq_true_eq]; omega
      rw [if_neg (by simpa [PartialPacketId.lt_iff_seq_lt] using hlt),
        if_pos (by simpa using hlt), hrest]
      rfl

theorem filter_succ_of_cons {c : Nat} : ∀ {l : List (PartialPacketId × SendRecord)} {e₀ tl},
    l.Pairwise (fun a b => a.1.seq < b.1.seq) →
    l.filter (fun e => decide (c ≤ e.1.seq)) = e₀ :: tl →
    l.filter (fun e => decide (e₀.1.seq + 1 ≤ e.1.seq)) = tl
  | [], _, _, _, h => by cases h
  | x :: xs, e₀, tl, hs, h => by
    obtain ⟨hx, hxs⟩ := List.pairwise_cons.mp hs
    rw [List.filter_cons] at h ⊢
    by_cases hc : c ≤ x.1.seq
    · rw [if_pos (decide_eq_true hc)] at h
      obtain ⟨rfl, rfl⟩ := List.cons.inj h
      rw [if_neg (by simp), List.filter_eq_self.mpr, List.filter_eq_self.mpr] <;>
        intro y hy <;> have := hx y hy <;> simp only [decide_eq_true_eq] <;> omega
    · rw [if_neg (by simpa using hc)] at h
      have he₀ : c ≤ e₀.1.seq :=
        of_decide_eq_true (List.mem_filter.mp (h ▸ List.mem_cons_self _ _ : e₀ ∈ _)).2
      rw [if_neg (by simp only [decide_eq_true_eq]; omega)]
      exact filter_succ_of_cons hxs h

end Iterators

/-! ### The maps -/

/-- Each stored record carries its own id, and every key is below its type's least unused id. -/
structure StoreInv (s : Resender) (nextFresh : PacketType → Nat) : Prop where
  keyed : ∀ i, ∀ e ∈ (s.fullSendQueue i).entries, e.2.id.id = ⟨indexType i, e.1⟩
  key_fresh : ∀ i, ∀ e ∈ (s.fullSendQueue i).entries, e.1.seq < nextFresh (indexType i)

theorem mem_stored {s : Resender} {i : Fin 3} {p : PacketId} {now : Int} {j : Fin 3}
    {e : PartialPacketId × SendRecord} (he : e ∈ (Function.update s.fullSendQueue i
      ((s.fullSendQueue i).insert p.part ⟨now, ⟨now, 0, p⟩⟩) j).entries) :
    (j = i ∧ e = (p.part, ⟨now, ⟨now, 0, p⟩⟩)) ∨ e ∈ (s.fullSendQueue j).entries := by
  by_cases hj : j = i
  · subst hj
    rw [Function.update_same] at he
    exact (Store.mem_insertEntry he).imp_left fun h => ⟨rfl, h⟩
  · rw [Function.update_noteq hj] at he
    exact .inr he

theorem mem_erased {s : Resender} {i : Fin 3} {k : PartialPacketId} {j : Fin 3}
    {e : PartialPacketId × SendRecord}
    (he : e ∈ (Function.update s.fullSendQueue i ((s.fullSendQueue i).erase k) j).entries) :
    e ∈ (s.fullSendQueue j).entries := by
  by_cases hj : j = i
  · subst hj
    rw [Function.update_same] at he
    exact (List.mem_filter.mp he).1
  · rwa [Function.update_noteq hj] at he

namespace StoreInv

variable {s : Resender} {nf : PacketType → Nat}

/-- Stored records have distinct ids, also across the maps. -/
theorem eq_of_id_eq (h : StoreInv s nf) {i j : Fin 3} {e e'}
    (he : e ∈ (s.fullSendQueue i).entries) (he' : e' ∈ (s.fullSendQueue j).entries)
    (hid : e.2.id.id = e'.2.id.id) : i = j ∧ e = e' := by
  rw [h.keyed i e he, h.keyed j e' he', PacketId.mk.injEq] at hid
  obtain rfl := indexType_injective hid.1
  exact ⟨rfl, Store.eq_of_key_eq he he' hid.2⟩

theorem unscheduled_eq (h : StoreInv s nf) (i : Fin 3) :
    s.unscheduled i = ((s.fullSendQueue i).entries.filter
      fun e => decide ((s.sendQueueIndices i).seq ≤ e.1.seq)).map (·.2) :=
  dropWhile_eq_filter _ (s.fullSendQueue i).sorted fun e he => by rw [h.keyed i e he]

theorem of_subset (h : StoreInv s nf) {s' : Resender}
    (hsub : ∀ j, ∀ e ∈ (s'.fullSendQueue j).entries, e ∈ (s.fullSendQueue j).entries) :
    StoreInv s' nf :=
  ⟨fun j e he => h.keyed j e (hsub j e he), fun j e he => h.key_fresh j e (hsub j e he)⟩

theorem frame (h : StoreInv s nf) {s' : Resender} (hf : s'.fullSendQueue = s.fullSendQueue) :
    StoreInv s' nf :=
  h.of_subset fun _ _ he => hf ▸ he

theorem erase (h : StoreInv s nf) (i : Fin 3) (k : PartialPacketId) (config : ResendConfig) :
    StoreInv { s with
      fullSendQueue := Function.update s.fullSendQueue i ((s.fullSendQueue i).erase k)
      config } nf :=
  h.of_subset fun _ _ => mem_erased

theorem store (h : StoreInv s nf) {i : Fin 3} {p : PacketId}
    (hi : packetTypeToIndex p.packetType = .ok i) (hfresh : nf p.packetType ≤ p.part.seq)
    (now : Int) :
    StoreInv { s with
      lastSend := now
      fullSendQueue := Function.update s.fullSendQueue i
        ((s.fullSendQueue i).insert p.part ⟨now, ⟨now, 0, p⟩⟩) }
      (Function.update nf p.packetType (p.part.seq + 1)) := by
  have ht := indexType_of_packetTypeToIndex hi
  refine ⟨fun j e he => ?_, fun j e he => ?_⟩ <;> rcases mem_stored he with ⟨rfl, rfl⟩ | he
  · show p = ⟨indexType j, p.part⟩
    rw [ht]
  · exact h.keyed j e he
  · show p.part.seq < Function.update nf p.packetType _ (indexType j)
    rw [ht, Function.update_same]
    omega
  · exact Nat.lt_of_lt_of_le (h.key_fresh j e he) (le_update_succ hfresh _)

theorem mem_markSent (h : StoreInv s nf) {top : Nat} {x : SendRecordId} {i : Fin 3}
    {r : SendRecord} (hi : packetTypeToIndex x.id.packetType = .ok i)
    (hr : (s.fullSendQueue i).get x.id.part = some r) (now : Int) {j : Fin 3}
    {e : PartialPacketId × SendRecord} (he : e ∈ ((s.markSent top x i now).fullSendQueue j).entries) :
    (j = i ∧ e = (x.id.part, { r with id := { x with last := now, tries := x.tries + 1 } })) ∨
      (e ∈ (s.fullSendQueue j).entries ∧ x.id ≠ e.2.id.id) := by
  have ht := indexType_of_packetTypeToIndex hi
  by_cases hj : j = i
  · subst hj
    simp only [Resender.markSent, Function.update_same, Store.update, List.mem_map] at he
    obtain ⟨e₁, he₁, rfl⟩ := he
    by_cases hk : e₁.1 = x.id.part
    · obtain rfl := Store.eq_of_key_eq he₁ (Store.get_eq_some.mp hr) hk
      exact .inl ⟨rfl, by simp⟩
    · rw [if_neg hk]
      refine .inr ⟨he₁, fun heq => hk ?_⟩
      rw [h.keyed j e₁ he₁] at heq
      rw [heq]
  · simp only [Resender.markSent, Function.update_noteq hj] at he
    refine .inr ⟨he, fun heq => hj ?_⟩
    rw [h.keyed j e he] at heq
    exact indexType_injective (congrArg PacketId.packetType heq ▸ ht).symm

theorem markSent (h : StoreInv s nf) (top : Nat) {x : SendRecordId} {i : Fin 3} {r : SendRecord}
    (hi : packetTypeToIndex x.id.packetType = .ok i)
    (hr : (s.fullSendQueue i).get x.id.part = some r) (now : Int) :
    StoreInv (s.markSent top x i now) nf := by
  have ht := indexType_of_packetTypeToIndex hi
  refine ⟨fun j e he => ?_, fun j e he => ?_⟩ <;>
    rcases h.mem_markSent hi hr now he with ⟨rfl, rfl⟩ | ⟨he, -⟩
  · show x.id = _
    rw [ht]
  · exact h.keyed j e he
  · exact h.key_fresh j (x.id.part, r) (Store.get_eq_some.mp hr)
  · exact h.key_fresh j e he

theorem pass (h : StoreInv s nf) {cubic : Cubic} {now : Int} {top : Nat} {sock : SendResult}
    {timerReady : Bool} {p : PollPass} (hp : s.pollPass cubic now top sock timerReady = .ok p) :
    StoreInv p.resender nf := by
  rcases Resender.pollPass_ok hp with ⟨hr, -, -⟩ | ⟨x, i, -, -, -, hr, -, -⟩ |
    ⟨x, i, r, -, hi, hget, -, -, ⟨-, hr, -⟩ | ⟨-, -, hr⟩⟩ <;> rw [hr]
  · exact h
  · exact h.frame (Resender.fillUpSendQueue_fullSendQueue _ _ _)
  · exact h.markSent top hi hget now
  · exact (h.markSent top hi hget now).frame (Resender.rebuildSendQueue_fullSendQueue _ _ _)

end StoreInv

/-! ### The schedule -/

/-- The schedule invariant, given the least unused id of each type and the packets sent. -/
structure ScheduleInv (s : Resender) (nextFresh : PacketType → Nat) (sentLog : List PacketId)
    extends StoreInv s nextFresh : Prop where
  scheduled : ∀ i, ∀ e ∈ (s.fullSendQueue i).entries,
    s.sendQueue.filter (·.id = e.2.id.id) =
      if e.1.seq < (s.sendQueueIndices i).seq then [e.2.id] else []
  tries : ∀ i, ∀ e ∈ (s.fullSendQueue i).entries, e.2.id.tries = sentLog.count e.2.id.id
  cursor_fresh : ∀ i, (s.sendQueueIndices i).seq ≤ nextFresh (indexType i)
  queue_fresh : ∀ x ∈ s.sendQueue, x.id.part.seq < nextFresh x.id.packetType
  log_fresh : ∀ x ∈ sentLog, x.part.seq < nextFresh x.packetType

namespace ScheduleInv

variable {s : Resender} {nf : PacketType → Nat} {log : List PacketId}

theorem of_subset (h : ScheduleInv s nf log) {s' : Resender}
    (hsub : ∀ j, ∀ e ∈ (s'.fullSendQueue j).entries, e ∈ (s.fullSendQueue j).entries)
    (hq : s'.sendQueue = s.sendQueue) (hidx : s'.sendQueueIndices = s.sendQueueIndices) :
    ScheduleInv s' nf log where
  toStoreInv := h.toStoreInv.of_subset hsub
  scheduled j e he := by rw [hq, hidx]; exact h.scheduled j e (hsub j e he)
  tries j e he := h.tries j e (hsub j e he)
  cursor_fresh j := hidx ▸ h.cursor_fresh j
  queue_fresh := hq ▸ h.queue_fresh
  log_fresh := h.log_fresh

theorem frame (h : ScheduleInv s nf log) {s' : Resender} (hf : s'.fullSendQueue = s.fullSendQueue)
    (hq : s'.sendQueue = s.sendQueue) (hidx : s'.sendQueueIndices = s.sendQueueIndices) :
    ScheduleInv s' nf log :=
  h.of_subset (fun _ _ he => hf ▸ he) hq hidx

theorem erase (h : ScheduleInv s nf log) (i : Fin 3) (k : PartialPacketId) (config : ResendConfig) :
    ScheduleInv { s with
      fullSendQueue := Function.update s.fullSendQueue i ((s.fullSendQueue i).erase k)
      config } nf log :=
  h.of_subset (fun _ _ => mem_erased) rfl rfl

theorem clear (h : ScheduleInv s nf log) :
    ScheduleInv { s with sendQueue := [], sendQueueIndices := fun _ => .zero } nf log where
  toStoreInv := h.toStoreInv.frame rfl
  scheduled _ e _ := by
    show [].filter _ = if e.1.seq < PartialPacketId.zero.seq then _ else _
    rw [PartialPacketId.seq_zero, if_neg (Nat.not_lt_zero _)]
    rfl
  tries := h.tries
  cursor_fresh _ := PartialPacketId.seq_zero ▸ Nat.zero_le _
  queue_fresh _ hx := by cases hx
  log_fresh := h.log_fresh

section Push

variable (h : ScheduleInv s nf log) (hnf : ∀ t, nf t < 2 ^ 48) {i : Fin 3} {rec : SendRecord}
  {rest : List SendRecord} (hi : s.unscheduled i = rec :: rest)
include h hnf hi

/-- The next record of iterator `i` is the first stored one at or above the cursor. -/
theorem next_unscheduled : ∃ e₀ tl, (s.fullSendQueue i).entries.filter
      (fun e => decide ((s.sendQueueIndices i).seq ≤ e.1.seq)) = e₀ :: tl ∧
    rec = e₀.2 ∧ rest = tl.map (·.2) ∧ (rec.id.id.part.add 1).seq = e₀.1.seq + 1 := by
  rw [h.unscheduled_eq i] at hi
  obtain ⟨e₀, tl, hfilter, rfl, rfl⟩ := List.map_eq_cons_iff.mp hi
  obtain ⟨he₀, -⟩ := List.mem_filter.mp (hfilter ▸ List.mem_cons_self _ _ : e₀ ∈ _)
  have := h.key_fresh i e₀ he₀
  refine ⟨e₀, tl, hfilter, rfl, rfl, ?_⟩
  rw [h.keyed i e₀ he₀]
  show (e₀.1.add 1).seq = _
  rw [PartialPacketId.seq_add_one]
  exact Nat.mod_eq_of_lt (by have := hnf (indexType i); omega)

/-- Pushing the next record of an iterator and moving its cursor keeps the invariant. -/
theorem push : ScheduleInv { s with
    sendQueueIndices := Function.update s.sendQueueIndices i (rec.id.id.part.add 1)
    sendQueue := s.sendQueue ++ [rec.id] } nf log := by
  obtain ⟨e₀, tl, hfilter, rfl, rfl, hcur⟩ := h.next_unscheduled hnf hi
  obtain ⟨he₀, hc⟩ := List.mem_filter.mp (hfilter ▸ List.mem_cons_self _ _ : e₀ ∈ _)
  replace hc := of_decide_eq_true hc
  -- the other records at or above the cursor lie above `e₀`
  have hmin : ∀ e ∈ (s.fullSendQueue i).entries, (s.sendQueueIndices i).seq ≤ e.1.seq →
      e = e₀ ∨ e₀.1.seq < e.1.seq := fun e he hce => by
    rcases List.mem_cons.mp (hfilter ▸ List.mem_filter.mpr ⟨he, decide_eq_true hce⟩) with rfl | htl
    · exact .inl rfl
    · exact .inr ((List.pairwise_cons.mp (hfilter ▸ (s.fullSendQueue i).sorted.filter _)).1 e htl)
  have hkey := h.keyed i e₀ he₀
  have hfresh := h.key_fresh i e₀ he₀
  refine ⟨h.toStoreInv.frame rfl, fun j e he => ?_, h.tries, fun j => ?_, fun y hy => ?_,
    h.log_fresh⟩
  · show (s.sendQueue ++ [e₀.2.id]).filter _ =
      if e.1.seq < (Function.update s.sendQueueIndices i _ j).seq then _ else _
    rw [List.filter_append, h.scheduled j e he]
    by_cases hje : j = i ∧ e = e₀
    · obtain ⟨rfl, rfl⟩ := hje
      simp [hcur, Nat.not_lt.mpr hc]
    have hne : e₀.2.id.id ≠ e.2.id.id := fun heq => by
      obtain ⟨rfl, rfl⟩ := h.eq_of_id_eq he₀ he heq
      exact hje ⟨rfl, rfl⟩
    rw [show [e₀.2.id].filter (·.id = e.2.id.id) = [] by simp [hne], List.append_nil]
    by_cases hj : j = i
    · subst hj
      have hiff : e.1.seq < (s.sendQueueIndices j).seq ↔ e.1.seq < e₀.1.seq + 1 := by
        refine ⟨fun hlt => by omega, fun hlt => Nat.lt_of_not_le fun hge => ?_⟩
        rcases hmin e he hge with rfl | hgt
        · exact hne rfl
        · omega
      simp only [Function.update_same, hcur, hiff]
    · rw [Function.update_noteq hj]
  · show (Function.update s.sendQueueIndices i _ j).seq ≤ _
    by_cases hj : j = i
    · subst hj
      rw [Function.update_same, hcur]
      omega
    · rw [Function.update_noteq hj]
      exact h.cursor_fresh j
  · rcases List.mem_append.mp hy with hy | hy
    · exact h.queue_fresh y hy
    · rw [List.mem_singleton.mp hy, hkey]
      exact hfresh

theorem push_unscheduled : Function.update s.unscheduled i rest = Resender.unscheduled { s with
    sendQueueIndices := Function.update s.sendQueueIndices i (rec.id.id.part.add 1)
    sendQueue := s.sendQueue ++ [rec.id] } := by
  have hinv := h.push hnf hi
  obtain ⟨e₀, tl, hfilter, rfl, rfl, hcur⟩ := h.next_unscheduled hnf hi
  funext j
  by_cases hj : j = i
  · subst hj
    rw [Function.update_same, hinv.unscheduled_eq j]
    show _ = ((s.fullSendQueue j).entries.filter
      fun e => decide ((Function.update s.sendQueueIndices j _ j).seq ≤ e.1.seq)).map _
    rw [Function.update_same, hcur, filter_succ_of_cons (s.fullSendQueue j).sorted hfilter]
  · simp only [Resender.unscheduled, Function.update_noteq hj]

end Push

theorem fillLoop (hnf : ∀ t, nf t < 2 ^ 48) (now : Int) :
    ∀ n iters (s : Resender), ScheduleInv s nf log → iters = s.unscheduled →
      ScheduleInv (Resender.fillLoop now n iters s).1 nf log
  | 0, _, s, h, _ => by
    unfold Resender.fillLoop Resender.shiftLoss
    split <;> exact h.frame rfl rfl rfl
  | n + 1, iters, s, h, hit => by
    subst hit
    unfold Resender.fillLoop
    split
    · exact h.frame rfl rfl rfl
    split
    · exact h
    next rec rest hi =>
      exact fillLoop hnf now n _ _ (h.push hnf hi) (h.push_unscheduled hnf hi)

theorem fill (h : ScheduleInv s nf log) (hnf : ∀ t, nf t < 2 ^ 48) (cubic : Cubic) (now : Int) :
    ScheduleInv (s.fillUpSendQueue cubic now).1 nf log :=
  fillLoop hnf now _ _ _ h rfl

theorem store (h : ScheduleInv s nf log) {i : Fin 3} {p : PacketId}
    (hi : packetTypeToIndex p.packetType = .ok i) (hfresh : nf p.packetType ≤ p.part.seq)
    (now : Int) :
    ScheduleInv { s with
      lastSend := now
      fullSendQueue := Function.update s.fullSendQueue i
        ((s.fullSendQueue i).insert p.part ⟨now, ⟨now, 0, p⟩⟩) }
      (Function.update nf p.packetType (p.part.seq + 1)) log := by
  have ht := indexType_of_packetTypeToIndex hi
  -- no scheduled entry and no sent packet has the new id
  have hq : ∀ x ∈ s.sendQueue, x.id ≠ p := fun x hx hxp => by
    have := h.queue_fresh x hx
    rw [hxp] at this
    omega
  have hl : p ∉ log := fun hp => by
    have := h.log_fresh p hp
    omega
  refine ⟨h.toStoreInv.store hi hfresh now, fun j e he => ?_, fun j e he => ?_,
    fun j => Nat.le_trans (h.cursor_fresh j) (le_update_succ hfresh _),
    fun x hx => Nat.lt_of_lt_of_le (h.queue_fresh x hx) (le_update_succ hfresh _),
    fun x hx => Nat.lt_of_lt_of_le (h.log_fresh x hx) (le_update_succ hfresh _)⟩ <;>
    rcases mem_stored he with ⟨rfl, rfl⟩ | he
  · show s.sendQueue.filter (·.id = p) = if p.part.seq < (s.sendQueueIndices j).seq then _ else _
    rw [if_neg (by have := h.cursor_fresh j; rw [ht] at this; omega), List.filter_eq_nil_iff]
    exact fun x hx => by simpa using hq x hx
  · exact h.scheduled j e he
  · exact (List.count_eq_zero_of_not_mem hl).symm
  · exact h.tries j e he

theorem send (h : ScheduleInv s nf log) {cubic : Cubic} {p : PacketId} {now : Int} {s' : Resender}
    (hfresh : nf p.packetType ≤ p.part.seq)
    (hnf : ∀ t, Function.update nf p.packetType (p.part.seq + 1) t < 2 ^ 48)
    (hs : s.sendPacket cubic p now = .ok s') :
    ScheduleInv s' (Function.update nf p.packetType (p.part.seq + 1)) log := by
  obtain ⟨i, hi, rfl⟩ := Resender.sendPacket_ok hs
  exact (h.store hi hfresh now).fill hnf cubic now

/-- A schedule entry whose record is stored is that record's id, below its type's cursor. -/
theorem entry_eq_stored (h : ScheduleInv s nf log) {x : SendRecordId} {i : Fin 3} {r : SendRecord}
    (hx : x ∈ s.sendQueue) (hi : packetTypeToIndex x.id.packetType = .ok i)
    (hr : (s.fullSendQueue i).get x.id.part = some r) :
    x = r.id ∧ x.id.part.seq < (s.sendQueueIndices i).seq := by
  have hre := Store.get_eq_some.mp hr
  have hrid : r.id.id = x.id := by rw [h.keyed i _ hre, indexType_of_packetTypeToIndex hi]
  have hsched := h.scheduled i _ hre
  have hin : x ∈ s.sendQueue.filter (·.id = r.id.id) :=
    List.mem_filter.mpr ⟨hx, by simp [hrid]⟩
  have hbelow : x.id.part.seq < (s.sendQueueIndices i).seq := by
    by_contra hge
    rw [hsched, if_neg hge] at hin
    cases hin
  rw [if_pos hbelow] at hsched
  exact ⟨List.mem_singleton.mp (hsched ▸ hin), hbelow⟩

section Top

variable (h : ScheduleInv s nf log) {top : Nat} {x : SendRecordId} {i : Fin 3}
  (hx : s.sendQueue[top]? = some x) (hi : packetTypeToIndex x.id.packetType = .ok i)
include h hx hi

theorem pop (hget : (s.fullSendQueue i).get x.id.part = none) :
    ScheduleInv { s with sendQueue := s.sendQueue.eraseIdx top } nf log := by
  have ht := indexType_of_packetTypeToIndex hi
  refine ⟨h.toStoreInv.frame rfl, fun j e he => ?_, h.tries, h.cursor_fresh,
    fun y hy => h.queue_fresh y (List.mem_of_mem_eraseIdx hy), h.log_fresh⟩
  have hne : x.id ≠ e.2.id.id := fun heq => by
    rw [h.keyed j e he] at heq
    obtain rfl : i = j := indexType_injective (ht.trans (congrArg PacketId.packetType heq))
    have : (x.id.part, e.2) ∈ (s.fullSendQueue i).entries := by rw [heq]; exact he
    rw [Store.get_eq_some.mpr this] at hget
    cases hget
  show (s.sendQueue.eraseIdx top).filter _ = _
  rw [filter_eraseIdx_of_not hx (decide_eq_false hne)]
  exact h.scheduled j e he

theorem markSent {r : SendRecord} (hr : (s.fullSendQueue i).get x.id.part = some r) (now : Int) :
    ScheduleInv (s.markSent top x i now) nf (log ++ [x.id]) := by
  have hxq := List.getElem?_mem hx
  have hre := Store.get_eq_some.mp hr
  -- the top entry is the stored record's, and the record is below the cursor
  obtain ⟨hxr, hbelow⟩ := h.entry_eq_stored hxq hi hr
  have hrid : r.id.id = x.id := by rw [hxr]
  have hsched := h.scheduled i _ hre
  rw [if_pos hbelow] at hsched
  refine ⟨h.toStoreInv.markSent top hi hr now, fun j e he => ?_, fun j e he => ?_, h.cursor_fresh,
    fun y hy => ?_, fun y hy => ?_⟩
  · rcases h.mem_markSent hi hr now he with ⟨rfl, rfl⟩ | ⟨he, hne⟩
    · show (s.sendQueue.set top _).filter (·.id = x.id) =
        if x.id.part.seq < (s.sendQueueIndices j).seq then _ else _
      rw [if_pos hbelow]
      exact filter_set_of_eq_singleton hx (by rw [← hrid, hsched, hxr]) (by simp) (by simp)
    · show (s.sendQueue.set top _).filter _ = _
      rw [filter_set_of_not hx (decide_eq_false hne) (decide_eq_false hne)]
      exact h.scheduled j e he
  · rcases h.mem_markSent hi hr now he with ⟨rfl, rfl⟩ | ⟨he, hne⟩
    · show x.tries + 1 = (log ++ [x.id]).count x.id
      rw [List.count_append, List.count_singleton_self, hxr, h.tries j _ hre, hrid]
    · rw [List.count_append, List.count_singleton, if_neg (by simpa using hne), Nat.add_zero]
      exact h.tries j e he
  · rcases List.mem_or_eq_of_mem_set hy with hy | rfl
    · exact h.queue_fresh y hy
    · exact h.queue_fresh x hxq
  · rcases List.mem_append.mp hy with hy | hy
    · exact h.log_fresh y hy
    · rw [List.mem_singleton.mp hy]
      exact h.queue_fresh x hxq

end Top

/-- A pass of `poll_resend` keeps the invariant, with its send counted. -/
theorem pass (h : ScheduleInv s nf log) (hnf : ∀ t, nf t < 2 ^ 48) {cubic : Cubic} {now : Int}
    {top : Nat} {sock : SendResult} {timerReady : Bool} {p : PollPass}
    (hp : s.pollPass cubic now top sock timerReady = .ok p) :
    ScheduleInv p.resender nf (log ++ p.sent.toList) := by
  rcases Resender.pollPass_ok hp with ⟨hr, hs, -⟩ | ⟨x, i, hx, hi, hget, hr, hs, -⟩ |
    ⟨x, i, r, hx, hi, hget, -, hs, hcase⟩
  · rw [hr, hs, Option.toList_none, List.append_nil]
    exact h
  · rw [hr, hs, Option.toList_none, List.append_nil]
    exact (h.pop hx hi hget).fill hnf cubic now
  · rw [hs, Option.toList_some]
    have hm := h.markSent hx hi hget now
    rcases hcase with ⟨-, hr, -⟩ | ⟨-, -, hr⟩ <;> rw [hr]
    · exact hm
    · exact (hm.frame rfl rfl rfl :
        ScheduleInv ((s.markSent top x i now).recordLoss cubic now) nf _).clear.fill hnf cubic now

end ScheduleInv

/-! ### Runs -/

theorem scheduleInv_init (cap : Nat) (now : Int) :
    ScheduleInv (Run.init cap now).con.resender (Run.init cap now).nextFresh
      (Run.init cap now).sentLog where
  keyed _ _ he := by cases he
  key_fresh _ _ he := by cases he
  scheduled _ _ he := by cases he
  tries _ _ he := by cases he
  cursor_fresh _ := Nat.le_of_eq PartialPacketId.seq_zero
  queue_fresh _ hx := by cases hx
  log_fresh _ hx := by cases hx

theorem ScheduleInv.step {cubic : Cubic} {r r' : Run}
    (h : ScheduleInv r.con.resender r.nextFresh r.sentLog) (hnf : ∀ t, r'.nextFresh t < 2 ^ 48)
    (hs : Step cubic r r') : ScheduleInv r'.con.resender r'.nextFresh r'.sentLog := by
  cases hs with
  | send p now _ hfresh hsend => exact h.send hfresh hnf hsend
  | ack _ _ _ _ hack =>
    obtain ⟨i, k, config, hc⟩ := Connection.ackPacket_resender hack
    show ScheduleInv _ _ _
    rw [hc]
    exact h.erase i k config
  | poll now top sock timerReady _ _ hp => exact h.pass hnf hp

theorem StoreInv.step {cubic : Cubic} {r r' : Run} (h : StoreInv r.con.resender r.nextFresh)
    (hs : Step cubic r r') : StoreInv r'.con.resender r'.nextFresh := by
  cases hs with
  | send p now _ hfresh hsend =>
    obtain ⟨i, hi, rfl⟩ := Resender.sendPacket_ok hsend
    exact (h.store hi hfresh now).frame (Resender.fillUpSendQueue_fullSendQueue _ _ _)
  | ack _ _ _ _ hack =>
    obtain ⟨i, k, config, hc⟩ := Connection.ackPacket_resender hack
    show StoreInv _ _
    rw [hc]
    exact h.erase i k config
  | poll _ _ _ _ _ _ hp => exact h.pass hp

theorem reachable_storeInv {cubic : Cubic} {cap : Nat} {now : Int} {r : Run}
    (hr : Reachable cubic cap now r) : StoreInv r.con.resender r.nextFresh := by
  induction hr with
  | refl => exact (scheduleInv_init cap now).toStoreInv
  | tail _ hs ih => exact ih.step hs

theorem reachable_scheduleInv {cubic : Cubic} {cap : Nat} {now : Int} {r : Run}
    (hr : Reachable cubic cap now r) (hnf : ∀ t, r.nextFresh t < 2 ^ 48) :
    ScheduleInv r.con.resender r.nextFresh r.sentLog := by
  induction hr with
  | refl => exact scheduleInv_init cap now
  | tail _ hs ih => exact (ih fun t => Nat.lt_of_le_of_lt (hs.nextFresh_le t) (hnf t)).step hnf hs

/-- Along a run in which no packet gets the greatest id of its type, each record below its
type's cursor has exactly one entry in the schedule, its own `SendRecordId`, and none at or above
it has one; `tries` counts the sends of the record, and a pass sends only stored records. -/
theorem reachable_schedule {cubic : Cubic} {cap : Nat} {now : Int} {r : Run}
    (hr : Reachable cubic cap now r) (hnf : ∀ t, r.nextFresh t < 2 ^ 48) (i : Fin 3) :
    (∀ e ∈ (r.con.resender.fullSendQueue i).entries,
      (e.1.seq < (r.con.resender.sendQueueIndices i).seq →
        r.con.resender.sendQueue.filter (·.id = e.2.id.id) = [e.2.id]) ∧
      ((r.con.resender.sendQueueIndices i).seq ≤ e.1.seq →
        ∀ x ∈ r.con.resender.sendQueue, x.id ≠ e.2.id.id) ∧
      e.2.id.tries = r.sentLog.count e.2.id.id) ∧
    ∀ now' top sock timerReady p, r.con.resender.pollPass cubic now' top sock timerReady = .ok p →
      ∀ id ∈ p.sent, ∃ j rec, packetTypeToIndex id.packetType = .ok j ∧
        (id.part, rec) ∈ (r.con.resender.fullSendQueue j).entries := by
  have h := reachable_scheduleInv hr hnf
  refine ⟨fun e he => ⟨fun hlt => ?_, fun hge x hx hid => ?_, h.tries i e he⟩,
    fun _ _ _ _ _ hp id hid => Resender.pollPass_sent_stored hp hid⟩
  · rw [h.scheduled i e he, if_pos hlt]
  · have := h.scheduled i e he
    rw [if_neg (Nat.not_lt.mpr hge), List.filter_eq_nil_iff] at this
    exact this x hx (by simpa using hid)

def command0 : PacketId := ⟨.command, .zero⟩

/-- A new connection's resender with the record of `command0` stored, before the refill. -/
def commandStored : Resender :=
  { Resender.default 50 0 with
    lastSend := 0
    fullSendQueue := Function.update (Resender.default 50 0).fullSendQueue 1
      (((Resender.default 50 0).fullSendQueue 1).insert command0.part ⟨0, ⟨0, 0, command0⟩⟩) }

/-- A new connection sends `command0`, and a pass of `poll_resend` sends its datagram. -/
theorem reachable_schedule_commandSent :
    ∃ r, Reachable (fun _ _ => 1) 50 0 r ∧ (∀ t, r.nextFresh t < 2 ^ 48) ∧
      r.sentLog = [command0] ∧ (r.con.resender.fullSendQueue 1).entries.map (·.2.id.tries) = [1] ∧
      ((∀ e ∈ (r.con.resender.fullSendQueue 1).entries,
        (e.1.seq < (r.con.resender.sendQueueIndices 1).seq →
          r.con.resender.sendQueue.filter (·.id = e.2.id.id) = [e.2.id]) ∧
        ((r.con.resender.sendQueueIndices 1).seq ≤ e.1.seq →
          ∀ x ∈ r.con.resender.sendQueue, x.id ≠ e.2.id.id) ∧
        e.2.id.tries = r.sentLog.count e.2.id.id) ∧
      ∀ now' top sock timerReady p,
        r.con.resender.pollPass (fun _ _ => 1) now' top sock timerReady = .ok p →
        ∀ id ∈ p.sent, ∃ j rec, packetTypeToIndex id.packetType = .ok j ∧
          (id.part, rec) ∈ (r.con.resender.fullSendQueue j).entries) := by
  have s₁ := @Step.send (fun _ _ => 1) (Run.init 50 0) command0 0
    (Resender.fillUpSendQueue (fun _ _ => 1) commandStored 0).1 (Int.le_refl _) (Nat.zero_le _) rfl
  have hr := (Relation.ReflTransGen.single s₁).tail
    (Step.poll 0 0 (.ready (.ok ())) false (Int.le_refl _) (.inr ⟨_, rfl, by decide⟩) rfl)
  have hnf : ∀ t, Function.update (Run.init 50 0).nextFresh command0.packetType
      (command0.part.seq + 1) t < 2 ^ 48 := fun t => by cases t <;> decide
  exact ⟨_, hr, hnf, rfl, by decide, reachable_schedule hr hnf 1⟩

def maxCommand : PacketId := ⟨.command, .max⟩

def maxStored (now : Int) : Resender :=
  { Resender.default 50 now with
    lastSend := now
    fullSendQueue := Function.update (Resender.default 50 now).fullSendQueue 1
      (((Resender.default 50 now).fullSendQueue 1).insert .max ⟨now, ⟨now, 0, maxCommand⟩⟩) }

/-- Sending `maxCommand` first schedules it and wraps the `Command` cursor to zero, so a record at
or above its type's cursor has an entry in the schedule. -/
theorem sendPacket_max_scheduled_above_cursor (cubic : Cubic) (now : Int) :
    ∃ r, Reachable cubic 50 now r ∧ r.nextFresh .command = 2 ^ 48 ∧
      (PartialPacketId.max, ⟨now, ⟨now, 0, maxCommand⟩⟩) ∈ (r.con.resender.fullSendQueue 1).entries ∧
      r.con.resender.sendQueueIndices 1 = .zero ∧
      ⟨now, 0, maxCommand⟩ ∈ r.con.resender.sendQueue := by
  obtain ⟨m, hm⟩ := Resender.fillUpSendQueue_of_nil (show (maxStored now).sendQueue = [] from rfl)
    cubic now
  refine ⟨_, .single (@Step.send cubic (Run.init 50 now) maxCommand now
    ((maxStored now).fillUpSendQueue cubic now).1 (Int.le_refl _) (Nat.zero_le _) rfl),
    rfl, ?_, ?_, ?_⟩
  · show _ ∈ (((maxStored now).fillUpSendQueue cubic now).1.fullSendQueue 1).entries
    rw [Resender.fillUpSendQueue_fullSendQueue]
    exact List.mem_singleton_self _
  · show ((maxStored now).fillUpSendQueue cubic now).1.sendQueueIndices 1 = _
    rw [hm]
    cases m <;> exact (rfl : _ = PartialPacketId.max.add 1).trans rfl
  · show _ ∈ ((maxStored now).fillUpSendQueue cubic now).1.sendQueue
    rw [hm]
    cases m <;> exact List.mem_singleton_self _

theorem sendPacket_max_wraps_cursor :
    ∃ r, Reachable (fun _ _ => 1) 50 0 r ∧ r.nextFresh .command = 2 ^ 48 ∧
      (PartialPacketId.max, ⟨0, ⟨0, 0, maxCommand⟩⟩) ∈ (r.con.resender.fullSendQueue 1).entries ∧
      r.con.resender.sendQueueIndices 1 = .zero ∧
      ⟨0, 0, maxCommand⟩ ∈ r.con.resender.sendQueue :=
  sendPacket_max_scheduled_above_cursor _ 0

end TsClient.Resend
