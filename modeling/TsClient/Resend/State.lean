import TsClient.Resend.PacketId

/-!
The state of `Resender` (`tsproto/src/resend.rs`): the records of the packets that wait for an
acknowledgement, one ordered map per reliable packet type (`full_send_queue`), the schedule of
the records to send next (`send_queue`, a `BinaryHeap`), the cursors into the maps
(`send_queue_indices`), and the congestion and round-trip state. Instants are nanoseconds
(`Int`) and durations are nanoseconds (`Nat`); a duration between two instants saturates at
zero, as `Instant - Instant` does. The timers (`Delay`) are not modelled, nor is the `f32`
evaluation of the cubic of `get_window`: it is a parameter (`Cubic`), and every result holds for
any such function.
-/

namespace TsClient.Resend

structure SendRecordId where
  last : Int
  tries : Nat
  id : PacketId
  deriving DecidableEq, Repr

/-- `Ord for SendRecordId`: an unsent packet first, then the earlier `last`, then the lower id. -/
def SendRecordId.cmp (a b : SendRecordId) : Ordering :=
  let byTime := (compare a.last b.last).swap.then (a.id.part.cmp b.id.part).swap
  if a.tries = 0 then (if b.tries ≠ 0 then .gt else byTime)
  else if b.tries = 0 then .lt
  else byTime

/-- `SendRecord`, without the datagram it holds. -/
structure SendRecord where
  sent : Int
  id : SendRecordId
  deriving DecidableEq, Repr

/-- A `BTreeMap<PartialPacketId, SendRecord>`: its entries in increasing key order. -/
structure Store where
  entries : List (PartialPacketId × SendRecord)
  sorted : entries.Pairwise fun a b => a.1.seq < b.1.seq

namespace Store

def empty : Store := ⟨[], .nil⟩

def keys (s : Store) : List PartialPacketId := s.entries.map (·.1)

def values (s : Store) : List SendRecord := s.entries.map (·.2)

def get (s : Store) (k : PartialPacketId) : Option SendRecord :=
  (s.entries.find? (·.1 == k)).map (·.2)

def insertEntry (k : PartialPacketId) (r : SendRecord) :
    List (PartialPacketId × SendRecord) → List (PartialPacketId × SendRecord)
  | [] => [(k, r)]
  | e :: es =>
    if k < e.1 then (k, r) :: e :: es
    else if k = e.1 then (k, r) :: es
    else e :: insertEntry k r es

theorem mem_insertEntry {k : PartialPacketId} {r : SendRecord} {x} :
    ∀ {l : List (PartialPacketId × SendRecord)}, x ∈ insertEntry k r l → x = (k, r) ∨ x ∈ l
  | [], h => .inl (List.mem_singleton.mp h)
  | e :: es, h => by
    simp only [insertEntry] at h
    split_ifs at h
    · simpa using h
    · rcases List.mem_cons.mp h with h | h
      · exact .inl h
      · exact .inr (List.mem_cons_of_mem _ h)
    · rcases List.mem_cons.mp h with h | h
      · exact .inr (h ▸ List.mem_cons_self _ _)
      · exact (mem_insertEntry h).imp_right (List.mem_cons_of_mem _)

theorem insertEntry_sorted (k : PartialPacketId) (r : SendRecord) :
    ∀ {l : List (PartialPacketId × SendRecord)}, l.Pairwise (fun a b => a.1.seq < b.1.seq) →
      (insertEntry k r l).Pairwise fun a b => a.1.seq < b.1.seq
  | [], _ => List.pairwise_singleton _ _
  | e :: es, h => by
    obtain ⟨he, hes⟩ := List.pairwise_cons.mp h
    simp only [insertEntry]
    split_ifs with hlt heq
    · have hk := PartialPacketId.lt_iff_seq_lt.mp hlt
      exact List.Pairwise.cons (fun x hx => by
        rcases List.mem_cons.mp hx with rfl | hx
        · exact hk
        · exact Nat.lt_trans hk (he x hx)) h
    · subst heq
      exact List.Pairwise.cons he hes
    · have hk : e.1.seq < k.seq := by
        have := mt PartialPacketId.lt_iff_seq_lt.mpr hlt
        have := mt PartialPacketId.seq_injective heq
        omega
      exact List.Pairwise.cons (fun x hx => by
        rcases mem_insertEntry hx with rfl | hx
        · exact hk
        · exact he x hx) (insertEntry_sorted k r hes)

def insert (s : Store) (k : PartialPacketId) (r : SendRecord) : Store :=
  ⟨insertEntry k r s.entries, insertEntry_sorted k r s.sorted⟩

def erase (s : Store) (k : PartialPacketId) : Store :=
  ⟨s.entries.filter (·.1 != k), s.sorted.filter _⟩

def remove (s : Store) (k : PartialPacketId) : Option SendRecord × Store :=
  (s.get k, s.erase k)

/-- A change of the record of key `k` through `BTreeMap::get_mut`. -/
def update (s : Store) (k : PartialPacketId) (f : SendRecord → SendRecord) : Store :=
  ⟨s.entries.map (fun e => if e.1 = k then (e.1, f e.2) else e), by
    rw [List.pairwise_map]
    refine s.sorted.imp ?_
    intro a b h
    split_ifs <;> exact h⟩

theorem insertEntry_of_lt {k : PartialPacketId} {r : SendRecord} :
    ∀ {l : List (PartialPacketId × SendRecord)}, (∀ e ∈ l, e.1.seq < k.seq) →
      insertEntry k r l = l ++ [(k, r)]
  | [], _ => rfl
  | e :: es, h => by
    have he := h e (List.mem_cons_self _ _)
    simp only [insertEntry, List.cons_append]
    rw [if_neg (fun h' => by have := PartialPacketId.lt_iff_seq_lt.mp h'; omega),
      if_neg (fun h' => by subst h'; omega),
      insertEntry_of_lt fun x hx => h x (List.mem_cons_of_mem _ hx)]

theorem eq_of_key_eq {s : Store} {a b : PartialPacketId × SendRecord} (ha : a ∈ s.entries)
    (hb : b ∈ s.entries) (hk : a.1 = b.1) : a = b := by
  obtain ⟨l, h⟩ := s
  induction l with
  | nil => cases ha
  | cons x xs ih =>
    obtain ⟨hx, hxs⟩ := List.pairwise_cons.mp h
    rcases List.mem_cons.mp ha with rfl | ha' <;> rcases List.mem_cons.mp hb with rfl | hb'
    · rfl
    · exact absurd (hx b hb') (by rw [hk]; exact lt_irrefl _)
    · exact absurd (hx a ha') (by rw [← hk]; exact lt_irrefl _)
    · exact ih hxs ha' hb'

theorem get_eq_some {s : Store} {k : PartialPacketId} {r : SendRecord} :
    s.get k = some r ↔ (k, r) ∈ s.entries := by
  constructor
  · intro h
    obtain ⟨e, he, rfl⟩ := Option.map_eq_some'.mp h
    have hk : e.1 = k := by simpa using List.find?_some he
    rw [← hk]
    exact List.mem_of_find?_eq_some he
  · intro h
    have hfind : (s.entries.find? (·.1 == k)).isSome := List.find?_isSome.mpr ⟨_, h, by simp⟩
    obtain ⟨e, he⟩ := Option.isSome_iff_exists.mp hfind
    have hk : e.1 = k := by simpa using List.find?_some he
    rw [get, he, eq_of_key_eq (List.mem_of_find?_eq_some he) h hk]
    rfl

theorem head_le {s : Store} {first : PartialPacketId} {r : SendRecord} {rest}
    (hs : s.entries = (first, r) :: rest) {e : PartialPacketId × SendRecord} (he : e ∈ s.entries) :
    first.seq ≤ e.1.seq := by
  have hsorted := s.sorted
  rw [hs] at hsorted he
  rcases List.mem_cons.mp he with rfl | he
  · exact Nat.le_refl _
  · exact Nat.le_of_lt ((List.pairwise_cons.mp hsorted).1 e he)

@[simp] theorem keys_update (s : Store) (k : PartialPacketId) (f : SendRecord → SendRecord) :
    (s.update k f).keys = s.keys := by
  simp only [keys, update, List.map_map]
  refine List.map_congr_left fun e _ => ?_
  simp only [Function.comp]
  split_ifs <;> rfl

theorem erase_head {s : Store} {first : PartialPacketId} {r : SendRecord} {rest}
    (hs : s.entries = (first, r) :: rest) : (s.erase first).entries = rest := by
  have hsorted := s.sorted
  rw [hs] at hsorted
  show s.entries.filter _ = rest
  rw [hs, List.filter_cons, if_neg (by simp), List.filter_eq_self.mpr]
  intro e he
  have := (List.pairwise_cons.mp hsorted).1 e he
  simp only [bne_iff_ne, ne_eq]
  rintro rfl
  exact Nat.lt_irrefl _ this

theorem erase_of_get_eq_none {s : Store} {k : PartialPacketId} (h : s.get k = none) :
    s.erase k = s := by
  have hnot : ∀ e ∈ s.entries, e.1 ≠ k := fun e he hk => by
    have : (k, e.2) ∈ s.entries := by rw [← hk]; exact he
    rw [get_eq_some.mpr this] at h
    cases h
  obtain ⟨l, hl⟩ := s
  simp only [erase, mk.injEq]
  exact List.filter_eq_self.mpr fun e he => by simpa using hnot e he

end Store

inductive ResenderState
  | connecting
  | connected
  | disconnecting
  | disconnected
  deriving DecidableEq, Repr

/-- `ResendConfig`, in nanoseconds. -/
structure ResendConfig where
  connectingTimeout : Nat
  normalTimeout : Nat
  disconnectTimeout : Nat
  srtt : Nat
  srttDev : Nat
  deriving DecidableEq, Repr

def ResendConfig.default : ResendConfig where
  connectingTimeout := 5000000000
  normalTimeout := 30000000000
  disconnectTimeout := 5000000000
  srtt := 500000000
  srttDev := 0

/-- The state of `Resender`, without its timers. -/
structure Resender where
  sendQueue : List SendRecordId
  fullSendQueue : Fin 3 → Store
  sendQueueIndices : Fin 3 → PartialPacketId
  config : ResendConfig
  state : ResenderState
  wMax : UInt16
  lastLoss : Int
  noCongestionSince : Option Int
  lastReceive : Int
  lastSend : Int

/-- The value `get_window` computes in `f32` from the time since the last loss and `w_max`. -/
abbrev Cubic := Nat → UInt16 → Int

namespace Resender

/-- `Resender::default()` at instant `now`; `w_max` starts at `UDP_SINK_CAPACITY`. -/
def default (udpSinkCapacity : Nat) (now : Int) : Resender where
  sendQueue := []
  fullSendQueue := fun _ => Store.empty
  sendQueueIndices := fun _ => PartialPacketId.zero
  config := ResendConfig.default
  state := .connecting
  wMax := UInt16.ofNat udpSinkCapacity
  lastLoss := now
  noCongestionSince := some now
  lastReceive := now
  lastSend := now

def getTimeout (s : Resender) : Nat :=
  match s.state with
  | .connecting => s.config.connectingTimeout
  | .disconnecting | .disconnected => s.config.disconnectTimeout
  | .connected => s.config.normalTimeout

/-- `get_window`: the cubic up to `no_congestion_since`, clamped to `[1, u16::MAX / 2]`. -/
def getWindow (cubic : Cubic) (s : Resender) (now : Int) : UInt16 :=
  let res := cubic (s.noCongestionSince.getD now - s.lastLoss).toNat s.wMax
  if 32767 < res then 32767 else if res < 1 then 1 else UInt16.ofNat res.toNat

theorem one_le_getWindow (cubic : Cubic) (s : Resender) (now : Int) :
    1 ≤ (s.getWindow cubic now).toNat := by
  simp only [getWindow]
  split_ifs with h₁ h₂
  · decide
  · decide
  · rw [UInt16.toNat_ofNat']
    omega

/-- `is_full`: `full_send_queue` is the array of the three maps, so its `len()` is 3. -/
def isFull (cubic : Cubic) (s : Resender) (now : Int) : Bool :=
  (s.getWindow cubic now).toNat ≤ 3

def outstanding (s : Resender) : Nat :=
  (s.fullSendQueue 0).entries.length + (s.fullSendQueue 1).entries.length +
    (s.fullSendQueue 2).entries.length

def fourCommands : Resender :=
  let record (k : UInt16) : SendRecord := ⟨0, ⟨0, 0, ⟨.command, ⟨0, k⟩⟩⟩⟩
  { default 50 0 with
    fullSendQueue := Function.update (default 50 0).fullSendQueue 1
      ((((Store.empty.insert ⟨0, 0⟩ (record 0)).insert ⟨0, 1⟩ (record 1)).insert ⟨0, 2⟩
        (record 2)).insert ⟨0, 3⟩ (record 3)) }

/-- `is_full` reads the window and not the maps. -/
theorem isFull_ignores_records :
    (∀ cubic (s : Resender) now (f : Fin 3 → Store),
      isFull cubic { s with fullSendQueue := f } now = isFull cubic s now) ∧
    (fourCommands.outstanding = 4 ∧ (fourCommands.getWindow (fun _ _ => 4) 0).toNat = 4 ∧
      fourCommands.isFull (fun _ _ => 4) 0 = false) ∧
    ((default 50 0).outstanding = 0 ∧ ((default 50 0).getWindow (fun _ _ => 3) 0).toNat = 3 ∧
      (default 50 0).isFull (fun _ _ => 3) 0 = true) :=
  ⟨fun _ _ _ _ => rfl, by decide, by decide⟩

def isEmpty (s : Resender) : Bool := s.sendQueue.isEmpty

def receivedPacket (s : Resender) (now : Int) : Resender := { s with lastReceive := now }

/-- `set_state`, without the timer it resets. -/
def setState (s : Resender) (state : ResenderState) (now : Int) : Resender :=
  { s with state, lastSend := now }

def updateSrtt (s : Resender) (rtt : Nat) : Resender :=
  let diff := if s.config.srtt < rtt then rtt - s.config.srtt else s.config.srtt - rtt
  { s with config := { s.config with
      srttDev := s.config.srttDev * 3 / 4 + diff / 4
      srtt := s.config.srtt * 7 / 8 + rtt / 8 } }

end Resender

end TsClient.Resend
