import TsClient.Audio.Output

/-!
`AudioHandler` (`tsclientlib/src/audio.rs`): the queue of each talker in a `HashMap`,
`handle_packet` to start, feed and end a talker's stream, and `fill_buffer` to add every
talker's next samples into the playback buffer and drop the talkers whose stream stopped.

The map is its list of entries, whose keys are distinct (a field of the handler); a `HashMap`
iterates in an unspecified order, and the model iterates in the list's. Each call is described
once by what it can do to the handler (`handlePacket_step`, `fillBuffer_cases`); the results
about single calls follow: a failed `handle_packet` changes nothing, an `Ok` one leaves the
talker with a queue exactly when its packet carried audio (`handlePacket_ok_talkers`), and
`fill_buffer` removes exactly the talkers with `MAX_PACKET_LOSSES` losses in a row
(`fillBuffer_removes_lost_talkers`) and panics only where a `get_next_data` panics: a slice is
never longer than the buffer it is added into (`fillBuffer_panics_only_in_getNextData`).
-/

namespace TsClient.Audio

/-- `MAX_PACKET_LOSSES`: after this many losses in a row the stream is taken to have stopped. -/
def maxPacketLosses : Nat := 3

/-- `CodecType` of `tsproto_packets`, outside this repository: two Opus codecs and the rest. -/
inductive CodecType
  | opusVoice
  | opusMusic
  | other (debug : String)
  deriving DecidableEq, Repr

def CodecType.debug : CodecType → String
  | .opusVoice => "OpusVoice"
  | .opusMusic => "OpusMusic"
  | .other d => d

/-- `AudioHandler`: a queue per talker, `talkers_changed`, and what a new queue buffers. -/
structure AudioHandler (Id D S : Type) where
  queues : List (Id × AudioQueue D S)
  talkers_nodup : (queues.map (·.1)).Nodup
  talkersChanged : Bool
  avgBufferSamples : Nat

variable {Id D S : Type}

namespace AudioHandler

def talkers (h : AudioHandler Id D S) : List Id := h.queues.map (·.1)

def new : AudioHandler Id D S := ⟨[], List.nodup_nil, false, 0⟩

def reset (h : AudioHandler Id D S) : AudioHandler Id D S :=
  { h with queues := [], talkers_nodup := List.nodup_nil, talkersChanged := false }

/-- `talkers_changed`: the flag, which the call clears. -/
def talkersChanged' (h : AudioHandler Id D S) : AudioHandler Id D S × Bool :=
  if h.talkersChanged then ({ h with talkersChanged := false }, true) else (h, false)

@[simp] theorem talkersChanged'_fst_queues (h : AudioHandler Id D S) :
    h.talkersChanged'.1.queues = h.queues := by
  unfold talkersChanged'; split <;> rfl

@[simp] theorem talkersChanged'_fst_talkersChanged (h : AudioHandler Id D S) :
    h.talkersChanged'.1.talkersChanged = false := by
  unfold talkersChanged'; split <;> simp_all

@[simp] theorem talkersChanged'_snd (h : AudioHandler Id D S) :
    h.talkersChanged'.2 = h.talkersChanged := by
  unfold talkersChanged'; split <;> simp_all

theorem map_fst_filter (q : Id → Bool) (qs : List (Id × AudioQueue D S)) :
    (qs.filter (q ·.1)).map (·.1) = (qs.map (·.1)).filter q := by
  rw [List.filter_map]
  rfl

section Fill

variable [Add S]

/-- `buf[i] += r[i]` over the slice `r`, which panics when the slice is longer than `buf`. -/
def mix (buf slice : List S) : Except Failure (List S) :=
  if slice.length ≤ buf.length then
    .ok (List.zipWith (· + ·) buf slice ++ buf.drop slice.length)
  else .error (.panic "index out of bounds")

theorem mix_length {buf slice buf' : List S} (h : mix buf slice = .ok buf') :
    buf'.length = buf.length := by
  unfold mix at h
  split at h
  · cases h
    simp only [List.length_append, List.length_zipWith, List.length_drop]
    omega
  · cases h

theorem mix_error {buf slice : List S} {f : Failure} (h : mix buf slice = .error f) :
    buf.length < slice.length := by
  unfold mix at h
  split at h
  · cases h
  · omega

variable [Zero S]

/-- One turn of the loop of `fill_buffer`: a queue with `MAX_PACKET_LOSSES` losses is marked for
removal, any other's slice is added into `buf`; an `Err` is only logged. -/
def fillTurn (op : Opus D S) (fuel : Nat) (queue : AudioQueue D S) (buf : List S) :
    Option (Except Failure (AudioQueue D S × Bool × List S)) :=
  if maxPacketLosses ≤ queue.packetLossNum then some (.ok (queue, true, buf))
  else match queue.getNextData op fuel buf.length with
    | none => none
    | some (_, ⟨queue, .ok slice⟩) =>
      match mix buf slice with
      | .ok buf => some (.ok (queue, false, buf))
      | .error f => some (.error f)
    | some (_, ⟨queue, .error (.err _)⟩) => some (.ok (queue, false, buf))
    | some (_, ⟨_, .error (.panic msg)⟩) => some (.error (.panic msg))

def fillLoop (op : Opus D S) (fuel : Nat) :
    List (Id × AudioQueue D S) → List S →
      Option (Except Failure (List (Id × AudioQueue D S) × List Id × List S))
  | [], buf => some (.ok ([], [], buf))
  | (id, queue) :: rest, buf =>
    match fillTurn op fuel queue buf with
    | none => none
    | some (.error f) => some (.error f)
    | some (.ok (queue, remove, buf)) =>
      match fillLoop op fuel rest buf with
      | none => none
      | some (.error f) => some (.error f)
      | some (.ok (queues, toRemove, buf)) =>
        some (.ok ((id, queue) :: queues, if remove then id :: toRemove else toRemove, buf))

theorem fillTurn_ok {op : Opus D S} {fuel : Nat} {queue queue' : AudioQueue D S} {remove : Bool}
    {buf buf' : List S} (h : fillTurn op fuel queue buf = some (.ok (queue', remove, buf'))) :
    remove = decide (maxPacketLosses ≤ queue.packetLossNum) ∧ buf'.length = buf.length ∧
      (queue.packetLossNum < maxPacketLosses → ∃ frames r,
        queue.getNextData op fuel buf.length = some (frames, ⟨queue', r⟩) ∧ Returns r) := by
  unfold fillTurn at h
  split at h
  · cases h
    exact ⟨by simp [*], rfl, by omega⟩
  · rename_i hlive
    split at h
    · cases h
    · rename_i frames q slice hg
      split at h
      · cases h
        exact ⟨by simp [hlive], mix_length ‹_›, fun _ => ⟨_, _, hg, returns_ok _⟩⟩
      · cases h
    · cases h
      exact ⟨by simp [hlive], rfl, fun _ => ⟨_, _, ‹_›, returns_err _⟩⟩
    · cases h

theorem fillTurn_error {op : Opus D S} {fuel : Nat} {queue : AudioQueue D S} {buf : List S}
    {f : Failure} (h : fillTurn op fuel queue buf = some (.error f)) :
    queue.packetLossNum < maxPacketLosses ∧ ∃ frames st msg,
      queue.getNextData op fuel buf.length = some (frames, ⟨st, .error (.panic msg)⟩) ∧
        f = .panic msg := by
  unfold fillTurn at h
  split at h
  · cases h
  · rename_i hlive
    refine ⟨by unfold maxPacketLosses at *; omega, ?_⟩
    split at h
    · cases h
    · rename_i frames q slice hg
      split at h
      · cases h
      · have hlen := mix_error ‹_›
        rcases getNextData_ok_length hg rfl with rfl | hs
        · simp at hlen
        · omega
    · cases h
    · cases h
      exact ⟨_, _, _, ‹_›, rfl⟩

theorem fillLoop_ok {op : Opus D S} {fuel : Nat} :
    ∀ {qs : List (Id × AudioQueue D S)} {buf : List S} {qs' toRemove buf'},
      fillLoop op fuel qs buf = some (.ok (qs', toRemove, buf')) →
        qs'.map (·.1) = qs.map (·.1) ∧
        toRemove = (qs.filter (maxPacketLosses ≤ ·.2.packetLossNum)).map (·.1) ∧
        (∀ e' ∈ qs', ∃ e ∈ qs, e.1 = e'.1 ∧ (e.2.packetLossNum < maxPacketLosses →
          ∃ frames r, e.2.getNextData op fuel buf.length = some (frames, ⟨e'.2, r⟩) ∧
            Returns r)) ∧
        buf'.length = buf.length
  | [], buf, qs', toRemove, buf', h => by
    cases h
    simp
  | (id, queue) :: rest, buf, qs', toRemove, buf', h => by
    unfold fillLoop at h
    split at h
    · cases h
    · cases h
    · rename_i queue₁ remove buf₁ hturn
      split at h
      · cases h
      · cases h
      · rename_i qs₁ toRemove₁ buf₂ hloop
        cases h
        obtain ⟨rfl, hlen, hq⟩ := fillTurn_ok hturn
        obtain ⟨hkeys, rfl, hm, hlen'⟩ := fillLoop_ok hloop
        refine ⟨by simp [hkeys], by by_cases hd : maxPacketLosses ≤ queue.packetLossNum <;>
          simp [hd, List.filter_cons], ?_, hlen'.trans hlen⟩
        intro e' he'
        rcases List.mem_cons.1 he' with rfl | he'
        · exact ⟨_, List.mem_cons_self _ _, rfl, hq⟩
        · obtain ⟨e, he, hid, hg⟩ := hm e' he'
          exact ⟨e, List.mem_cons_of_mem _ he, hid, hlen ▸ hg⟩

theorem fillLoop_error {op : Opus D S} {fuel : Nat} :
    ∀ {qs : List (Id × AudioQueue D S)} {buf : List S} {f : Failure},
      fillLoop op fuel qs buf = some (.error f) →
        ∃ e ∈ qs, e.2.packetLossNum < maxPacketLosses ∧ ∃ frames st msg,
          e.2.getNextData op fuel buf.length = some (frames, ⟨st, .error (.panic msg)⟩) ∧
            f = .panic msg
  | [], buf, f, h => by cases h
  | (id, queue) :: rest, buf, f, h => by
    unfold fillLoop at h
    split at h
    · cases h
    · cases h
      exact ⟨_, List.mem_cons_self _ _, fillTurn_error ‹_›⟩
    · rename_i queue₁ remove buf₁ hturn
      split at h
      · cases h
      · cases h
        obtain ⟨e, he, hg⟩ := fillLoop_error ‹_›
        exact ⟨e, List.mem_cons_of_mem _ he, (fillTurn_ok hturn).2.1 ▸ hg⟩
      · cases h

end Fill

variable [DecidableEq Id]

def remove (h : AudioHandler Id D S) (id : Id) : AudioHandler Id D S :=
  { h with
    queues := h.queues.filter (·.1 ≠ id)
    talkers_nodup := h.talkers_nodup.sublist ((List.filter_sublist _).map _) }

theorem map_fst_update (qs : List (Id × AudioQueue D S)) (id : Id) (queue : AudioQueue D S) :
    (qs.map fun e => if e.1 = id then (e.1, queue) else e).map (·.1) = qs.map (·.1) := by
  simp [apply_ite]

/-- `add_packet` on the queue of `queues.get_mut(&id)`: the entry of `id` holds the new queue. -/
def update (h : AudioHandler Id D S) (id : Id) (queue : AudioQueue D S) : AudioHandler Id D S :=
  { h with
    queues := h.queues.map fun e => if e.1 = id then (e.1, queue) else e
    talkers_nodup := (map_fst_update h.queues id queue).symm ▸ h.talkers_nodup }

/-- `queues.insert(id, queue)`: an entry of `id` is replaced; here the entry goes first. -/
def insert (h : AudioHandler Id D S) (id : Id) (queue : AudioQueue D S) : AudioHandler Id D S :=
  { h with
    queues := (id, queue) :: (h.remove id).queues
    talkers_nodup := List.nodup_cons.2 ⟨by simp [remove], (h.remove id).talkers_nodup⟩ }

@[simp] theorem talkers_remove (h : AudioHandler Id D S) (id : Id) :
    (h.remove id).talkers = h.talkers.filter (· ≠ id) := by
  simp [talkers, remove, List.filter_map, Function.comp_def]

@[simp] theorem talkers_update (h : AudioHandler Id D S) (id : Id) (queue : AudioQueue D S) :
    (h.update id queue).talkers = h.talkers :=
  map_fst_update h.queues id queue

@[simp] theorem talkers_insert (h : AudioHandler Id D S) (id : Id) (queue : AudioQueue D S) :
    (h.insert id queue).talkers = id :: h.talkers.filter (· ≠ id) := by
  show id :: (h.remove id).talkers = _
  rw [talkers_remove]

theorem mem_remove {h : AudioHandler Id D S} {id : Id} {e : Id × AudioQueue D S} :
    e ∈ (h.remove id).queues ↔ e ∈ h.queues ∧ e.1 ≠ id := by
  simp [remove]

theorem mem_update {h : AudioHandler Id D S} {id : Id} {queue : AudioQueue D S}
    {e : Id × AudioQueue D S} :
    e ∈ (h.update id queue).queues ↔
      e ∈ h.queues ∧ e.1 ≠ id ∨ e = (id, queue) ∧ id ∈ h.talkers := by
  simp only [update, List.mem_map, talkers]
  constructor
  · rintro ⟨a, ha, rfl⟩
    split_ifs with hid
    · exact .inr ⟨by rw [hid], a, ha, hid⟩
    · exact .inl ⟨ha, hid⟩
  · rintro (⟨he, hne⟩ | ⟨rfl, a, ha, hid⟩)
    · exact ⟨e, he, if_neg hne⟩
    · exact ⟨a, ha, by rw [if_pos hid, hid]⟩

theorem mem_insert {h : AudioHandler Id D S} {id : Id} {queue : AudioQueue D S}
    {e : Id × AudioQueue D S} :
    e ∈ (h.insert id queue).queues ↔ e = (id, queue) ∨ e ∈ h.queues ∧ e.1 ≠ id := by
  simp only [insert, List.mem_cons, mem_remove]

theorem mem_remove_of_ne {h : AudioHandler Id D S} {id : Id} {e : Id × AudioQueue D S}
    (hne : e.1 ≠ id) : e ∈ (h.remove id).queues ↔ e ∈ h.queues := by
  rw [mem_remove]
  exact and_iff_left hne

theorem mem_update_of_ne {h : AudioHandler Id D S} {id : Id} {queue : AudioQueue D S}
    {e : Id × AudioQueue D S} (hne : e.1 ≠ id) :
    e ∈ (h.update id queue).queues ↔ e ∈ h.queues := by
  rw [mem_update]
  exact ⟨fun h => h.elim And.left fun h => absurd (congrArg Prod.fst h.1) hne,
    fun h => .inl ⟨h, hne⟩⟩

theorem mem_insert_of_ne {h : AudioHandler Id D S} {id : Id} {queue : AudioQueue D S}
    {e : Id × AudioQueue D S} (hne : e.1 ≠ id) :
    e ∈ (h.insert id queue).queues ↔ e ∈ h.queues := by
  rw [mem_insert]
  exact ⟨fun h => h.elim (fun h => absurd (congrArg Prod.fst h) hne) And.left,
    fun h => .inr ⟨h, hne⟩⟩

theorem filter_not_mem_filter {qs : List (Id × AudioQueue D S)} (hq : (qs.map (·.1)).Nodup)
    (p : Id × AudioQueue D S → Bool) :
    qs.filter (·.1 ∉ (qs.filter p).map (·.1)) = qs.filter (!p ·) := by
  induction qs with
  | nil => rfl
  | cons e rest ih =>
    rw [List.map_cons, List.nodup_cons] at hq
    have hrest : rest.filter (·.1 ∉ ((e :: rest).filter p).map (·.1)) =
        rest.filter (·.1 ∉ (rest.filter p).map (·.1)) :=
      List.filter_congr fun x hx => by
        have : x.1 ≠ e.1 := fun h => hq.1 (h ▸ List.mem_map_of_mem _ hx)
        by_cases hp : p e <;> simp [List.filter_cons, hp, this]
    have he : e.1 ∉ (rest.filter p).map (·.1) :=
      fun h => hq.1 (List.map_subset _ (List.filter_sublist _).subset h)
    by_cases hp : p e
    · rw [List.filter_cons, if_neg (by simp [hp]), hrest, ih hq.2, List.filter_cons,
        if_neg (by simp [hp])]
    · rw [List.filter_cons, if_pos (by simp [hp, he]), hrest, ih hq.2, List.filter_cons,
        if_pos (by simp [hp])]

/-- The end of `fill_buffer`: remove each talker of `to_remove` and set `talkers_changed`. -/
def removeAll (h : AudioHandler Id D S) (toRemove : List Id) : AudioHandler Id D S :=
  toRemove.foldl (fun h id => { h.remove id with talkersChanged := true }) h

theorem removeAll_queues (toRemove : List Id) :
    ∀ h : AudioHandler Id D S,
      (h.removeAll toRemove).queues = h.queues.filter (·.1 ∉ toRemove) := by
  induction toRemove with
  | nil => intro h; simp [removeAll]
  | cons id toRemove ih =>
    intro h
    simp only [removeAll, List.foldl_cons] at ih ⊢
    rw [ih]
    simp [remove, List.filter_filter, Bool.and_comm]

theorem removeAll_talkersChanged (toRemove : List Id) :
    ∀ h : AudioHandler Id D S,
      (h.removeAll toRemove).talkersChanged = (h.talkersChanged || !toRemove.isEmpty) := by
  induction toRemove with
  | nil => intro h; simp [removeAll]
  | cons id toRemove ih =>
    intro h
    simp only [removeAll, List.foldl_cons] at ih ⊢
    rw [ih]
    simp

/-- `handle_packet`: only Opus is decoded; a talker's first packet with audio starts a queue,
which buffers the mean `get_min_queue_size` of the others (or the last such mean). -/
def handlePacket (op : Opus D S) (h : AudioHandler Id D S) (id : Id) (codec : CodecType)
    (packet : InAudioBuf) : Outcome (AudioHandler Id D S) Unit :=
  let empty := packet.payload.isEmpty
  if codec ≠ .opusMusic ∧ codec ≠ .opusVoice then
    ⟨h, .error (.err ("Can only handle opus audio but got " ++ codec.debug))⟩
  else match h.queues.lookup id with
    | some queue =>
      if empty then ⟨{ h.remove id with talkersChanged := true }, .ok ()⟩
      else match queue.addPacket op packet with
        | .error f => ⟨h, .error f⟩
        | .ok queue => ⟨h.update id queue, .ok ()⟩
    | none =>
      if empty then ⟨h, .ok ()⟩
      else match AudioQueue.new op packet with
        | .error f => ⟨h, .error f⟩
        | .ok queue =>
          let avgBufferSamples :=
            if h.queues.isEmpty then h.avgBufferSamples
            else (h.queues.map (·.2.getMinQueueSize)).sum / h.queues.length
          ⟨{ h.insert id { queue with bufferingSamples := avgBufferSamples } with
              avgBufferSamples := avgBufferSamples, talkersChanged := true }, .ok ()⟩

/-- What `handle_packet` can do: fail, ignore the end of an unknown stream, end a stream, queue
the packet, or start the talker's queue buffering `avg` samples. -/
inductive PacketStep (op : Opus D S) (id : Id) (packet : InAudioBuf) (h : AudioHandler Id D S) :
    Outcome (AudioHandler Id D S) Unit → Prop
  | fail (f : Failure) : PacketStep op id packet h ⟨h, .error f⟩
  | ignore : packet.payload = [] → id ∉ h.talkers → PacketStep op id packet h ⟨h, .ok ()⟩
  | remove : packet.payload = [] → id ∈ h.talkers →
      PacketStep op id packet h ⟨{ h.remove id with talkersChanged := true }, .ok ()⟩
  | addPacket {queue queue'} : packet.payload ≠ [] → (id, queue) ∈ h.queues →
      queue.addPacket op packet = .ok queue' →
      PacketStep op id packet h ⟨h.update id queue', .ok ()⟩
  | new {queue} (avg : Nat) : packet.payload ≠ [] → id ∉ h.talkers →
      AudioQueue.new op packet = .ok queue →
      PacketStep op id packet h ⟨{ h.insert id { queue with bufferingSamples := avg } with
        avgBufferSamples := avg, talkersChanged := true }, .ok ()⟩

theorem handlePacket_step (op : Opus D S) (h : AudioHandler Id D S) (id : Id) (codec : CodecType)
    (packet : InAudioBuf) : PacketStep op id packet h (h.handlePacket op id codec packet) := by
  unfold handlePacket
  dsimp only
  split
  · exact .fail _
  · split
    · rename_i queue hl
      have hmem := mem_of_lookup_eq_some hl
      split
      · exact .remove (List.isEmpty_iff.mp ‹_›) (List.mem_map_of_mem _ hmem)
      · split
        · exact .fail _
        · exact .addPacket (mt List.isEmpty_iff.mpr ‹_›) hmem ‹_›
    · rename_i hl
      split
      · exact .ignore (List.isEmpty_iff.mp ‹_›) (not_mem_of_lookup_eq_none hl)
      · split
        · exact .fail _
        · exact .new _ (mt List.isEmpty_iff.mpr ‹_›) (not_mem_of_lookup_eq_none hl) ‹_›

theorem handlePacket_error {op : Opus D S} {h : AudioHandler Id D S} {id : Id} {codec : CodecType}
    {packet : InAudioBuf} {f : Failure}
    (hf : (h.handlePacket op id codec packet).result = .error f) :
    (h.handlePacket op id codec packet).state = h := by
  have hs := handlePacket_step op h id codec packet
  generalize h.handlePacket op id codec packet = r at hs hf ⊢
  cases hs <;> first | rfl | cases hf

theorem handlePacket_talkers (op : Opus D S) (h : AudioHandler Id D S) (id : Id)
    (codec : CodecType) (packet : InAudioBuf)
    (hf : (h.handlePacket op id codec packet).state.talkersChanged = false) :
    (h.handlePacket op id codec packet).state.talkers = h.talkers ∧ h.talkersChanged = false := by
  have step := handlePacket_step op h id codec packet
  generalize h.handlePacket op id codec packet = r at step hf ⊢
  cases step with
  | fail => exact ⟨rfl, hf⟩
  | ignore => exact ⟨rfl, hf⟩
  | remove => cases hf
  | addPacket => exact ⟨talkers_update .., hf⟩
  | new => cases hf

/-- After an `Ok`, the talker has a queue exactly when its packet carried audio. -/
theorem handlePacket_ok_talkers {op : Opus D S} {h : AudioHandler Id D S} {id : Id}
    {codec : CodecType} {packet : InAudioBuf}
    (hok : (h.handlePacket op id codec packet).result = .ok ()) :
    (id ∈ (h.handlePacket op id codec packet).state.talkers ↔ packet.payload ≠ []) ∧
      ∀ e : Id × AudioQueue D S, e.1 ≠ id →
        (e ∈ (h.handlePacket op id codec packet).state.queues ↔ e ∈ h.queues) := by
  have step := handlePacket_step op h id codec packet
  generalize h.handlePacket op id codec packet = r at step hok ⊢
  cases step with
  | fail => cases hok
  | ignore he hid => exact ⟨by simp [he, hid], fun _ _ => Iff.rfl⟩
  | remove he _ =>
    exact ⟨show id ∈ (h.remove id).talkers ↔ _ by simp [he],
      fun _ hne => mem_remove_of_ne hne⟩
  | addPacket hne hmem _ =>
    refine ⟨show id ∈ (h.update id _).talkers ↔ _ from ?_,
      fun _ hne' => mem_update_of_ne hne'⟩
    rw [talkers_update]
    exact iff_of_true (List.mem_map_of_mem _ hmem) hne
  | new avg hne hid _ =>
    exact ⟨show id ∈ (h.insert id _).talkers ↔ _ by simp [hne],
      fun _ hne' => mem_insert_of_ne hne'⟩

theorem handlePacket_ok_talkers_new :
    (new.handlePacket (countingOpus 960) 7 .opusVoice ⟨0, [0], false⟩).result = .ok () ∧
      (7 ∈ (new.handlePacket (countingOpus 960) 7 .opusVoice ⟨0, [0], false⟩).state.talkers ↔
        [(0 : UInt8)] ≠ []) ∧
      ∀ e : Nat × AudioQueue Nat Nat, e.1 ≠ 7 →
        (e ∈ (new.handlePacket (countingOpus 960) 7 .opusVoice ⟨0, [0], false⟩).state.queues ↔
          e ∈ (new : AudioHandler Nat Nat Nat).queues) :=
  ⟨rfl, handlePacket_ok_talkers rfl⟩

section Fill

variable [Zero S] [Add S]

/-- `fill_buffer`: one turn per queue, then the removals. A panic's handler is not used. -/
def fillBuffer (op : Opus D S) (fuel : Nat) (h : AudioHandler Id D S) (buf : List S) :
    Option (Outcome (AudioHandler Id D S) (List S)) :=
  match hl : fillLoop op fuel h.queues buf with
  | none => none
  | some (.error f) => some ⟨h, .error f⟩
  | some (.ok (queues, toRemove, buf)) =>
    some ⟨removeAll
      { h with queues, talkers_nodup := by rw [(fillLoop_ok hl).1]; exact h.talkers_nodup }
      toRemove, .ok buf⟩

theorem fillBuffer_cases {op : Opus D S} {fuel : Nat} {h : AudioHandler Id D S} {buf : List S}
    {r : Outcome (AudioHandler Id D S) (List S)} (hr : h.fillBuffer op fuel buf = some r) :
    (∃ f, fillLoop op fuel h.queues buf = some (.error f) ∧ r = ⟨h, .error f⟩) ∨
    ∃ qs toRemove buf', fillLoop op fuel h.queues buf = some (.ok (qs, toRemove, buf')) ∧
      r.result = .ok buf' ∧ r.state.queues = qs.filter (·.1 ∉ toRemove) ∧
      r.state.talkersChanged = (h.talkersChanged || !toRemove.isEmpty) := by
  unfold fillBuffer at hr
  split at hr
  · cases hr
  · cases hr
    exact .inl ⟨_, ‹_›, rfl⟩
  · cases hr
    exact .inr ⟨_, _, _, ‹_›, rfl, removeAll_queues _ _, removeAll_talkersChanged _ _⟩

theorem fillBuffer_ok_queues {op : Opus D S} {fuel : Nat} {h h' : AudioHandler Id D S}
    {buf buf' : List S} (hr : h.fillBuffer op fuel buf = some ⟨h', .ok buf'⟩) :
    ∀ e' ∈ h'.queues, ∃ e ∈ h.queues, e.1 = e'.1 ∧ e.2.packetLossNum < maxPacketLosses ∧
      ∃ frames r, e.2.getNextData op fuel buf.length = some (frames, ⟨e'.2, r⟩) ∧
        Returns r := by
  rcases fillBuffer_cases hr with ⟨f, -, hr'⟩ | ⟨qs, toRemove, buf'', hl, -, hq, -⟩
  · cases hr'
  · obtain ⟨-, rfl, hm, -⟩ := fillLoop_ok hl
    intro e' he'
    rw [hq, List.mem_filter] at he'
    obtain ⟨e, he, hid, hg⟩ := hm e' he'.1
    have hlive : e.2.packetLossNum < maxPacketLosses := by
      by_contra hd
      refine of_decide_eq_true he'.2
        (hid ▸ List.mem_map_of_mem _ (List.mem_filter.2 ⟨he, ?_⟩))
      simpa using hd
    exact ⟨e, he, hid, hlive, hg hlive⟩

theorem fillBuffer_ok_talkers {op : Opus D S} {fuel : Nat} {h h' : AudioHandler Id D S}
    {buf buf' : List S} (hr : h.fillBuffer op fuel buf = some ⟨h', .ok buf'⟩) :
    h'.talkers = (h.queues.filter (·.2.packetLossNum < maxPacketLosses)).map (·.1) ∧
      (h'.talkersChanged = true ↔
        h.talkersChanged = true ∨ ∃ e ∈ h.queues, maxPacketLosses ≤ e.2.packetLossNum) ∧
      buf'.length = buf.length := by
  rcases fillBuffer_cases hr with ⟨f, -, hr'⟩ | ⟨qs, toRemove, buf'', hl, hres, hq, hc⟩
  · cases hr'
  · obtain ⟨hkeys, rfl, -, hlen⟩ := fillLoop_ok hl
    cases hres
    simp only at hq hc
    refine ⟨?_, by simp [hc, List.filter_eq_nil_iff], hlen⟩
    set D := (h.queues.filter (maxPacketLosses ≤ ·.2.packetLossNum)).map (·.1) with hD
    calc h'.talkers
        = (qs.map (·.1)).filter (· ∉ D) := by
          rw [talkers, hq]; exact map_fst_filter (fun id => decide (id ∉ D)) qs
      _ = (h.queues.filter (·.1 ∉ D)).map (·.1) := by
          rw [hkeys]; exact (map_fst_filter (fun id => decide (id ∉ D)) h.queues).symm
      _ = _ := by
          rw [hD, filter_not_mem_filter h.talkers_nodup]
          simp only [← decide_not, Nat.not_le]

theorem fillBuffer_error {op : Opus D S} {fuel : Nat} {h : AudioHandler Id D S} {buf : List S}
    {r : Outcome (AudioHandler Id D S) (List S)} (hr : h.fillBuffer op fuel buf = some r)
    {f : Failure} (hf : r.result = .error f) :
    r.state = h ∧ ∃ e ∈ h.queues, e.2.packetLossNum < maxPacketLosses ∧ ∃ frames st msg,
      e.2.getNextData op fuel buf.length = some (frames, ⟨st, .error (.panic msg)⟩) ∧
        f = .panic msg := by
  rcases fillBuffer_cases hr with ⟨f', hl, rfl⟩ | ⟨qs, toRemove, buf', -, hres, -⟩
  · cases hf
    exact ⟨rfl, fillLoop_error hl⟩
  · rw [hres] at hf
    cases hf

theorem fillBuffer_talkers {op : Opus D S} {fuel : Nat} {h : AudioHandler Id D S} {buf : List S}
    {r} (hr : h.fillBuffer op fuel buf = some r) (hf : r.state.talkersChanged = false) :
    r.state.talkers = h.talkers ∧ h.talkersChanged = false := by
  rcases r with ⟨h', _ | buf'⟩
  · obtain ⟨rfl, -⟩ := fillBuffer_error hr rfl
    exact ⟨rfl, hf⟩
  · obtain ⟨ht, hc, -⟩ := fillBuffer_ok_talkers hr
    have hf : h'.talkersChanged = false := hf
    simp only [hf, Bool.false_eq_true, false_iff, not_or, not_exists, not_and, Nat.not_le] at hc
    refine ⟨ht.trans ?_, by simpa using hc.1⟩
    rw [List.filter_eq_self.2 fun e he => by simpa using hc.2 e he]
    rfl

/-- `fill_buffer` keeps, in order, exactly the talkers with fewer than `MAX_PACKET_LOSSES` losses,
and sets `talkers_changed` exactly when one is removed or it was set. -/
theorem fillBuffer_removes_lost_talkers {op : Opus D S} {fuel : Nat} {h h' : AudioHandler Id D S}
    {buf buf' : List S} (hr : h.fillBuffer op fuel buf = some ⟨h', .ok buf'⟩) :
    h'.talkers = (h.queues.filter (·.2.packetLossNum < maxPacketLosses)).map (·.1) ∧
      (h'.talkersChanged = true ↔
        h.talkersChanged = true ∨ ∃ e ∈ h.queues, maxPacketLosses ≤ e.2.packetLossNum) ∧
      (∀ e' ∈ h'.queues, ∃ e ∈ h.queues, e.1 = e'.1 ∧
        ∃ frames r, e.2.getNextData op fuel buf.length = some (frames, ⟨e'.2, r⟩) ∧ Returns r) ∧
      buf'.length = buf.length := by
  obtain ⟨ht, hc, hlen⟩ := fillBuffer_ok_talkers hr
  refine ⟨ht, hc, fun e' he' => ?_, hlen⟩
  obtain ⟨e, he, hid, -, hg⟩ := fillBuffer_ok_queues hr e' he'
  exact ⟨e, he, hid, hg⟩

def lostTalker : AudioHandler Nat Nat Nat :=
  ⟨[(7, { AudioQueue.started 0 960 ⟨0, [0], false⟩ with packetLossNum := 3 })],
    List.nodup_singleton 7, false, 0⟩

theorem fillBuffer_removes_lostTalker :
    lostTalker.fillBuffer (countingOpus 960) 1 [0] = some ⟨⟨[], List.nodup_nil, true, 0⟩, .ok [0]⟩ ∧
      (⟨[], List.nodup_nil, true, 0⟩ : AudioHandler Nat Nat Nat).talkers =
        (lostTalker.queues.filter (·.2.packetLossNum < maxPacketLosses)).map (·.1) ∧
      ((⟨[], List.nodup_nil, true, 0⟩ : AudioHandler Nat Nat Nat).talkersChanged = true ↔
        lostTalker.talkersChanged = true ∨
          ∃ e ∈ lostTalker.queues, maxPacketLosses ≤ e.2.packetLossNum) ∧
      (∀ e' ∈ (⟨[], List.nodup_nil, true, 0⟩ : AudioHandler Nat Nat Nat).queues,
        ∃ e ∈ lostTalker.queues, e.1 = e'.1 ∧ ∃ frames r,
          e.2.getNextData (countingOpus 960) 1 [0].length = some (frames, ⟨e'.2, r⟩) ∧ Returns r) ∧
      [(0 : Nat)].length = [(0 : Nat)].length :=
  have hr : lostTalker.fillBuffer (countingOpus 960) 1 [0] =
      some ⟨⟨[], List.nodup_nil, true, 0⟩, .ok [0]⟩ := rfl
  ⟨hr, fillBuffer_removes_lost_talkers hr⟩

/-- `fill_buffer` panics only where `get_next_data` of a talker it keeps panics. -/
theorem fillBuffer_panics_only_in_getNextData {op : Opus D S} {fuel : Nat}
    {h : AudioHandler Id D S} {buf : List S} {r} (hr : h.fillBuffer op fuel buf = some r)
    {f : Failure} (hf : r.result = .error f) :
    ∃ e ∈ h.queues, e.2.packetLossNum < maxPacketLosses ∧ ∃ frames st msg,
      e.2.getNextData op fuel buf.length = some (frames, ⟨st, .error (.panic msg)⟩) ∧
        f = .panic msg :=
  (fillBuffer_error hr hf).2

def wrappedTalker : AudioHandler Nat Nat Nat :=
  ⟨[(7, wrappedQueue)], List.nodup_singleton 7, false, 0⟩

theorem fillBuffer_panics_wrappedTalker :
    wrappedTalker.fillBuffer (countingOpus 960) 1 [0] =
        some ⟨wrappedTalker, .error (.panic "Invalid packet queue state")⟩ ∧
      ∃ e ∈ wrappedTalker.queues, e.2.packetLossNum < maxPacketLosses ∧ ∃ frames st msg,
        e.2.getNextData (countingOpus 960) 1 [0].length =
          some (frames, ⟨st, .error (.panic msg)⟩) ∧
        Failure.panic "Invalid packet queue state" = .panic msg :=
  have hr : wrappedTalker.fillBuffer (countingOpus 960) 1 [0] =
      some ⟨wrappedTalker, .error (.panic "Invalid packet queue state")⟩ := rfl
  ⟨hr, fillBuffer_panics_only_in_getNextData hr rfl⟩

end Fill

end AudioHandler

end TsClient.Audio
