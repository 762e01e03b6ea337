import TsClient.Audio.Decode

/-!
The queues one talker's stream passes through, and what holds in all of them:
`packet_buffer_samples` is the sum of the queued packets' samples and at most
`MAX_BUFFER_PACKETS` packets are queued. Each operation keeps this (`PacketsCounted`), and the
refill loop keeps it pass by pass, on its error exits too.
-/

namespace TsClient.Audio

variable {D S : Type}

/-- `packet_buffer_samples` counts the queued samples, and the queue is within its bound. -/
structure PacketsCounted (q : AudioQueue D S) : Prop where
  samples_eq : q.packetBufferSamples = (q.packetBuffer.map (·.samples)).sum
  length_le : q.packetBuffer.length ≤ maxBufferPackets

namespace PacketsCounted

theorem of_same {q q' : AudioQueue D S} (hq : PacketsCounted q) (h : SamePackets q q') :
    PacketsCounted q' :=
  ⟨by rw [h.packetBuffer_eq, h.packetBufferSamples_eq]; exact hq.samples_eq,
    by rw [h.packetBuffer_eq]; exact hq.length_le⟩

theorem addPacket {op : Opus D S} {q q' : AudioQueue D S} {p : InAudioBuf}
    (hq : PacketsCounted q) (h : q.addPacket op p = .ok q') : PacketsCounted q' := by
  obtain ⟨samples, b, hlen, -, rfl⟩ := AudioQueue.addPacket_eq h
  have hperm := List.perm_insertIdx (⟨p, samples, p.id⟩ : QueuePacket) q.packetBuffer
    (AudioQueue.insertIndex_le q.packetBuffer p.id)
  constructor
  · simp only [(hperm.map _).sum_eq, hq.samples_eq, List.map_cons, List.sum_cons]
    omega
  · simp only [hperm.length_eq, List.length_cons]
    omega

theorem new {op : Opus D S} {p : InAudioBuf} {q : AudioQueue D S}
    (h : AudioQueue.new op p = .ok q) : PacketsCounted q := by
  unfold AudioQueue.new at h
  dsimp only at h
  split at h
  · cases h
  · cases h
  · split at h
    · cases h
    · rename_i h₁
      obtain ⟨l, c, rfl⟩ := AudioQueue.addBufferSize_eq h₁
      exact addPacket ⟨rfl, Nat.zero_le _⟩ h

theorem truncate {q : AudioQueue D S} (hq : PacketsCounted q) (min : Nat) :
    PacketsCounted (q.truncate min) :=
  ⟨rfl, by simp only [AudioQueue.truncate, List.length_drop]; exact (Nat.sub_le _ _).trans hq.length_le⟩

theorem adjustBuffer {q : AudioQueue D S} (hq : PacketsCounted q) :
    PacketsCounted q.adjustBuffer.state := by
  rcases q.adjustBuffer_cases with h | h
  · rw [h]
    exact hq.truncate _
  · exact hq.of_same h

theorem finishRefill {r : Outcome (AudioQueue D S) Unit} (hr : PacketsCounted r.state)
    (pos : Nat) : PacketsCounted (AudioQueue.finishRefill pos r).state := by
  rcases AudioQueue.finishRefill_state pos r with h | h <;> rw [h]
  · exact hr
  · exact hr.adjustBuffer

variable [Zero S]

theorem refill {q : AudioQueue D S} (hq : PacketsCounted q) (op : Opus D S) :
    PacketsCounted (q.refill op).state := by
  have hc := hq.of_same q.compact_same
  dsimp only [AudioQueue.refill]
  generalize q.compact = c at hc ⊢
  split
  · exact (hc.of_same (c.decodePacket_same _ _ _)).finishRefill _
  · rename_i packet rest hbuf
    have hsum := hc.samples_eq
    have hlen := hc.length_le
    rw [hbuf] at hsum hlen
    simp only [List.map_cons, List.sum_cons, List.length_cons] at hsum hlen
    rw [subUsize_of_le (by omega)]
    dsimp only
    have hpop : PacketsCounted
        { c with
          packetBuffer := rest
          packetBufferSamples := c.packetBufferSamples - packet.samples
          nextId := c.nextId + 1 } :=
      ⟨by simp only; omega, by simp only; omega⟩
    split_ifs
    · obtain ⟨q', hq', h | h⟩ := AudioQueue.decodeLoss_state op _ packet <;>
        refine PacketsCounted.finishRefill ?_ _ <;> rw [h]
      · exact hpop.of_same hq'
      · constructor
        · simp only [List.map_cons, List.sum_cons, hq'.packetBuffer_eq,
            hq'.packetBufferSamples_eq]
          omega
        · simp only [List.length_cons, hq'.packetBuffer_eq]
          omega
    · exact (hpop.of_same (AudioQueue.decodePacket_same _ _ _ _)).finishRefill _
    · exact hpop

theorem refillLoop (op : Opus D S) (len : Nat) :
    ∀ fuel {q : AudioQueue D S} {r}, PacketsCounted q →
      AudioQueue.refillLoop op len fuel q = some r → PacketsCounted r.2.state := by
  intro fuel
  induction fuel with
  | zero =>
    intro q r hq h
    unfold AudioQueue.refillLoop at h
    split_ifs at h
    cases h
    exact hq.of_same ⟨rfl, rfl, rfl⟩
  | succ fuel ih =>
    intro q r hq h
    unfold AudioQueue.refillLoop at h
    split_ifs at h
    · dsimp only at h
      split at h
      · cases h
        exact hq.refill op
      · obtain ⟨r', hr', rfl⟩ := Option.map_eq_some'.mp h
        exact @ih _ r' (hq.refill op) hr'
    · cases h
      exact hq.of_same ⟨rfl, rfl, rfl⟩

theorem getNextData {op : Opus D S} {q : AudioQueue D S} {fuel len : Nat} {r}
    (hq : PacketsCounted q) (h : q.getNextData op fuel len = some r) : PacketsCounted r.2.state := by
  unfold AudioQueue.getNextData at h
  split_ifs at h
  · refine refillLoop op len fuel ?_ h
    exact hq.of_same ⟨rfl, rfl, rfl⟩
  · cases h
    exact hq.of_same ⟨rfl, rfl, rfl⟩
  · exact refillLoop op len fuel hq h

end PacketsCounted

variable [Zero S]

/-- A stream's queues: `AudioQueue::new`, then accepted `add_packet`s and `get_next_data`s that
return. A rejected `add_packet` leaves the queue as it was; a panic ends the stream. -/
inductive Reachable (op : Opus D S) : AudioQueue D S → Prop
  | new {packet q} (buffering : Nat) :
      AudioQueue.new op packet = .ok q → Reachable op { q with bufferingSamples := buffering }
  | addPacket {q q' packet} : Reachable op q → q.addPacket op packet = .ok q' → Reachable op q'
  | getNextData {q fuel len frames r} : Reachable op q →
      q.getNextData op fuel len = some (frames, r) → Returns r.result → Reachable op r.state

/-- Every queue of a stream counts its queued samples and holds at most `MAX_BUFFER_PACKETS`. -/
theorem reachable_packetsCounted {op : Opus D S} {q : AudioQueue D S} (h : Reachable op q) :
    PacketsCounted q := by
  induction h with
  | new _ hq => exact (PacketsCounted.new hq).of_same ⟨rfl, rfl, rfl⟩
  | addPacket _ h ih => exact ih.addPacket h
  | getNextData _ h _ ih => exact ih.getNextData h

theorem reachable_started {op : Opus D S} {p : InAudioBuf} {samples : Nat} {d : D}
    (hs : op.nbSamples p.payload = .ok samples) (hd : op.decoderNew = .ok d) :
    Reachable op (AudioQueue.started d samples p) :=
  .new 0 (AudioQueue.new_eq hs hd)

/-- Packet 0 starts a stream, packet 1 arrives, and `get_next_data` reads packet 0's samples. -/
theorem twoPackets_packetsCounted :
    ∃ q frames r, (AudioQueue.started 0 2 ⟨0, [0], false⟩ : AudioQueue Nat Nat).addPacket
        (countingOpus 2) ⟨1, [1], false⟩ = .ok q ∧
      q.getNextData (countingOpus 2) 1 4 = some (frames, r) ∧ r.result = .ok [0, 1, 2, 3] ∧
      Reachable (countingOpus 2) r.state ∧ r.state.packetBuffer.map (·.id) = [1] ∧
      PacketsCounted r.state := by
  have h₀ : Reachable (countingOpus 2) (AudioQueue.started 0 2 ⟨0, [0], false⟩) :=
    reachable_started rfl rfl
  have h₁ := @Reachable.addPacket _ _ _ _ _ _ ⟨1, [1], false⟩ h₀ rfl
  have h₂ := @Reachable.getNextData _ _ _ _ _ 1 4 _ _ h₁ rfl (returns_ok _)
  exact ⟨_, _, _, rfl, rfl, rfl, h₂, rfl, reachable_packetsCounted h₂⟩

/-- Once the newest queued id is 65535, the `p.id + 1` of the next `add_packet` overflows. -/
theorem addPacket_overflows_after_id_65535 :
    Reachable (countingOpus 960) (AudioQueue.started 0 960 ⟨65535, [0], false⟩) ∧
      (AudioQueue.started 0 960 ⟨65535, [0], false⟩).addPacket (countingOpus 960) ⟨0, [1], false⟩ =
        .error (.panic "attempt to add with overflow") :=
  ⟨reachable_started rfl rfl, rfl⟩

/-- Packets 65534 and then 0 (65535 was lost): `add_packet` compares plain `u16` ids. -/
def wrappedQueue : AudioQueue Nat Nat :=
  { decoder := 0, nextId := 65534, whispering := false,
    packetBuffer := [⟨⟨0, [1], false⟩, 960, 0⟩, ⟨⟨65534, [0], false⟩, 960, 65534⟩],
    packetBufferSamples := 1920, decodedBuffer := [], decodedPos := 0, lastPacketSamples := 1920,
    packetLossNum := 0, bufferingSamples := 0, lastBufferSamples := [(0, 0)],
    curLastBufferSample := 1, bufferedForSamples := 0 }

/-- Across the wrap, `get_next_data` pops id 0 while it expects 65534: its `debug_assert!` fails. -/
theorem getNextData_assert_fails_across_wrap :
    Reachable (countingOpus 960) wrappedQueue ∧ wrappedQueue.nextId = 65534 ∧
      wrappedQueue.packetBuffer.map (·.id) = [0, 65534] ∧
      (wrappedQueue.getNextData (countingOpus 960) 1 1920).map (·.2.result) =
        some (.error (.panic "Invalid packet queue state")) :=
  have h : Reachable (countingOpus 960) (AudioQueue.started 0 960 ⟨65534, [0], false⟩) :=
    reachable_started rfl rfl
  ⟨@Reachable.addPacket _ _ _ _ _ _ ⟨0, [1], false⟩ h rfl, rfl, rfl, rfl⟩

end TsClient.Audio
