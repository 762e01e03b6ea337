import TsClient.Audio.Invariant
import Mathlib.Tactic.Ring

/-!
What `get_next_data` returns. Each pass of its refill loop first compacts `decoded_buffer`, so
that the samples not yet returned come first and `decoded_pos` is 0, but `decode_packet` then
writes the next frame from `decoded_pos` on, over those samples (`keepFrames_of_zero`). So a
request longer than one decoded frame never completes, since the buffer never holds more than
one frame (`getNextData_no_slice`), and the samples a call leaves in the buffer are lost when
the next call decodes (`getNextData_skips_leftover`).
-/

namespace TsClient.Audio

variable {D S : Type}

theorem interleave_append (xs ys : List (S × S)) :
    interleave (xs ++ ys) = interleave xs ++ interleave ys := by
  induction xs with
  | nil => rfl
  | cons x xs ih => simp [interleave, ih]

@[simp] theorem length_interleave (xs : List (S × S)) : (interleave xs).length = 2 * xs.length := by
  induction xs with
  | nil => rfl
  | cons x xs ih => simp [interleave, ih]; omega

@[simp] theorem length_resize [Zero S] (xs : List S) (n : Nat) : (resize xs n).length = n := by
  simp [resize]
  omega

theorem take_writeFrom_zero (xs ys : List S) : (writeFrom xs 0 ys).take ys.length = ys := by
  simp [writeFrom]

theorem length_drain_le {xs ys : List S} {a b : Nat} (h : drain xs a b = .ok ys) :
    ys.length ≤ xs.length := by
  unfold drain at h
  split_ifs at h with hab
  cases h
  simp only [List.length_append, List.length_take, List.length_drop]
  omega

theorem length_speedUp_le (start : Nat) :
    ∀ (is : List Nat) {xs ys : List S}, speedUp start is xs = .ok ys → ys.length ≤ xs.length
  | [], _, _, h => by cases h; exact le_refl _
  | i :: is, xs, ys, h => by
    unfold speedUp at h
    dsimp only at h
    split at h
    · cases h
    · rename_i xs' hd
      exact (length_speedUp_le start is h).trans (length_drain_le hd)

namespace AudioQueue

@[simp] theorem compact_decodedPos (q : AudioQueue D S) : q.compact.decodedPos = 0 := by
  unfold compact
  split_ifs <;> simp_all

@[simp] theorem compact_lastPacketSamples (q : AudioQueue D S) :
    q.compact.lastPacketSamples = q.lastPacketSamples := by
  unfold compact
  split_ifs <;> rfl

theorem compact_length_le (q : AudioQueue D S) :
    q.compact.decodedBuffer.length ≤ q.decodedBuffer.length := by
  unfold compact
  split_ifs <;> simp

theorem recordBufferSize_eq (q : AudioQueue D S) :
    ∃ l c, q.recordBufferSize.state = q ∨
      q.recordBufferSize.state = { q with lastBufferSamples := l, curLastBufferSample := c } := by
  unfold recordBufferSize
  split
  · exact ⟨[], 0, .inl rfl⟩
  · split
    · exact ⟨[], 0, .inl rfl⟩
    · rename_i h
      obtain ⟨l, c, rfl⟩ := addBufferSize_eq h
      exact ⟨l, c, .inr rfl⟩

theorem recordBufferSize_decodedPos (q : AudioQueue D S) :
    q.recordBufferSize.state.decodedPos = q.decodedPos := by
  obtain ⟨l, c, hr | hr⟩ := q.recordBufferSize_eq <;> rw [hr]

theorem adjustBuffer_decodedPos (q : AudioQueue D S) :
    q.adjustBuffer.state.decodedPos = q.decodedPos := by
  dsimp only [adjustBuffer]
  split_ifs
  · rfl
  · split
    · rfl
    · split <;> rfl
  · rfl

theorem finishRefill_decodedPos (pos : Nat) (r : Outcome (AudioQueue D S) Unit) :
    (finishRefill pos r).state.decodedPos = r.state.decodedPos := by
  rcases finishRefill_state pos r with h | h <;> rw [h]
  exact r.state.adjustBuffer_decodedPos

theorem keepFrames_decodedBuffer (q : AudioQueue D S) (d : D) (frames : List (S × S))
    (normal : Bool) (hpos : q.decodedPos = 0) :
    (q.keepFrames d frames normal).decodedBuffer = interleave frames := by
  simp only [keepFrames, hpos, Nat.zero_add]
  rw [show frames.length * channelNum = (interleave frames).length by simp [channelNum]; ring]
  exact take_writeFrom_zero _ _

theorem keepFrames_of_zero (q : AudioQueue D S) (d : D) (frames : List (S × S)) (normal : Bool)
    (hpos : q.decodedPos = 0) :
    q.keepFrames d frames normal = { q with
      decoder := d
      lastPacketSamples := frames.length
      decodedBuffer := interleave frames
      packetLossNum := if normal then 0 else q.packetLossNum } := by
  rw [← keepFrames_decodedBuffer q d frames normal hpos]
  rfl

end AudioQueue

/-- `decode_float` writes only into the output slice it is given. -/
def Opus.FitsSlice (op : Opus D S) : Prop :=
  ∀ d data cap fec d' frames, op.decodeFloat d data cap fec = .ok (d', frames) →
    frames.length * channelNum ≤ cap

/-- Every frame the queue can decode next fits in `m` stereo frames, and so does the buffer. -/
structure FramesWithin (m : Nat) (q : AudioQueue D S) : Prop where
  packets_le : ∀ p ∈ q.packetBuffer, p.samples ≤ m
  lastPacketSamples_le : q.lastPacketSamples ≤ m
  decodedBuffer_le : q.decodedBuffer.length ≤ m * channelNum

namespace FramesWithin

variable {m : Nat}

theorem mono {q q' : AudioQueue D S} (h : FramesWithin m q)
    (hp : ∀ p ∈ q'.packetBuffer, p ∈ q.packetBuffer) (hl : q'.lastPacketSamples = q.lastPacketSamples)
    (hb : q'.decodedBuffer.length ≤ q.decodedBuffer.length) : FramesWithin m q' :=
  ⟨fun p hp' => h.packets_le p (hp p hp'), hl ▸ h.lastPacketSamples_le, hb.trans h.decodedBuffer_le⟩

theorem recordBufferSize {q : AudioQueue D S} (h : FramesWithin m q) :
    FramesWithin m q.recordBufferSize.state := by
  obtain ⟨l, c, hr | hr⟩ := q.recordBufferSize_eq <;> rw [hr]
  · exact h
  · exact h.mono (fun _ => id) rfl le_rfl

theorem adjustBuffer {q : AudioQueue D S} (h : FramesWithin m q) :
    FramesWithin m q.adjustBuffer.state := by
  dsimp only [AudioQueue.adjustBuffer]
  split_ifs
  · exact h.mono (fun _ hp => List.mem_of_mem_drop hp) rfl le_rfl
  · split
    · exact h
    · split
      · exact h
      · rename_i hs
        exact h.mono (fun _ => id) rfl (length_speedUp_le _ _ hs)
  · exact h

theorem finishRefill {r : Outcome (AudioQueue D S) Unit} (h : FramesWithin m r.state) (pos : Nat) :
    FramesWithin m (AudioQueue.finishRefill pos r).state := by
  rcases AudioQueue.finishRefill_state pos r with hr | hr <;> rw [hr]
  · exact h
  · exact h.adjustBuffer

section Decoding

variable [Zero S]

theorem decodePacket {op : Opus D S} (hop : op.FitsSlice) {q : AudioQueue D S}
    (h : FramesWithin m q) (hpos : q.decodedPos = 0) {packet : Option QueuePacket}
    (hp : ∀ p ∈ packet, p.samples ≤ m) (fec : Bool) :
    FramesWithin m (q.decodePacket op packet fec).state := by
  have hlen : q.decodeLen packet ≤ m := by
    cases packet with
    | none => exact h.lastPacketSamples_le
    | some p => exact hp p rfl
  dsimp only [AudioQueue.decodePacket]
  split
  · refine ⟨h.packets_le, h.lastPacketSamples_le, ?_⟩
    simp only [AudioQueue.prepareDecode, length_resize, hpos, Nat.zero_add]
    exact Nat.mul_le_mul_right _ hlen
  · rename_i d frames hd
    have hfits := hop _ _ _ _ _ _ hd
    have hframes : frames.length ≤ m :=
      (Nat.le_of_mul_le_mul_right hfits (by decide)).trans hlen
    apply FramesWithin.recordBufferSize
    refine ⟨h.packets_le, hframes, ?_⟩
    rw [AudioQueue.keepFrames_decodedBuffer (q.prepareDecode packet) _ _ _ hpos, length_interleave]
    simp only [channelNum]
    omega

theorem decodeLoss {op : Opus D S} (hop : op.FitsSlice) {q : AudioQueue D S}
    (h : FramesWithin m q) (hpos : q.decodedPos = 0) {packet : QueuePacket}
    (hpk : packet.samples ≤ m) : FramesWithin m (q.decodeLoss op packet).state := by
  have hr : FramesWithin m (if packet.id = q.nextId then q.decodePacket op (some packet) true
      else q.decodePacket op none false).state := by
    split_ifs
    · exact h.decodePacket hop hpos (fun p hp => Option.some_inj.mp hp ▸ hpk) _
    · exact h.decodePacket hop hpos (fun _ hp => (Option.not_mem_none _ hp).elim) _
  dsimp only [AudioQueue.decodeLoss]
  generalize (if packet.id = q.nextId then _ else _) = r at hr ⊢
  split
  · exact hr
  · refine ⟨?_, hr.lastPacketSamples_le, hr.decodedBuffer_le⟩
    simp only [List.mem_cons, forall_eq_or_imp]
    exact ⟨hpk, hr.packets_le⟩

theorem refill {op : Opus D S} (hop : op.FitsSlice) {q : AudioQueue D S}
    (h : FramesWithin m q) : FramesWithin m (q.refill op).state := by
  have hc : FramesWithin m q.compact :=
    h.mono (fun p hp => q.compact_same.packetBuffer_eq ▸ hp) q.compact_lastPacketSamples
      q.compact_length_le
  have hpos := q.compact_decodedPos
  dsimp only [AudioQueue.refill]
  generalize q.compact = c at hc hpos ⊢
  split
  · exact (hc.decodePacket hop hpos (fun _ hp => (Option.not_mem_none _ hp).elim) _).finishRefill _
  · rename_i packet rest hbuf
    have hrest : ∀ p ∈ rest, p ∈ c.packetBuffer := fun p hp => hbuf ▸ List.mem_cons_of_mem _ hp
    have hpk : packet.samples ≤ m := hc.packets_le packet (hbuf ▸ List.mem_cons_self _ _)
    split
    · exact hc.mono hrest rfl le_rfl
    · have hpop : FramesWithin m
          { c with packetBuffer := rest, packetBufferSamples := ‹_›, nextId := c.nextId + 1 } :=
        hc.mono hrest rfl le_rfl
      split_ifs
      · exact (hpop.decodeLoss hop hpos hpk).finishRefill _
      · exact (hpop.decodePacket hop hpos (fun p hp => Option.some_inj.mp hp ▸ hpk) _).finishRefill _
      · exact hpop

end Decoding

end FramesWithin

section Decoding

variable [Zero S]

/-- With every frame within `m` and `len` above `m` stereo frames, no pass returns a slice. -/
theorem refillLoop_no_slice {op : Opus D S} (hop : op.FitsSlice) {m len : Nat}
    (hlen : m * channelNum < len) :
    ∀ fuel {q : AudioQueue D S} {frames r}, FramesWithin m q →
      q.refillLoop op len fuel = some (frames, r) → ∃ f, r.result = .error f := by
  intro fuel
  induction fuel with
  | zero =>
    intro q frames r h hr
    unfold AudioQueue.refillLoop at hr
    rw [if_pos (by have := h.decodedBuffer_le; omega)] at hr
    cases hr
  | succ fuel ih =>
    intro q frames r h hr
    unfold AudioQueue.refillLoop at hr
    rw [if_pos (by have := h.decodedBuffer_le; omega)] at hr
    dsimp only at hr
    split at hr
    · cases hr
      exact ⟨_, rfl⟩
    · obtain ⟨⟨frames', r'⟩, hr', heq⟩ := Option.map_eq_some'.mp hr
      cases heq
      exact ih (h.refill hop) hr'

theorem getNextData_no_slice {op : Opus D S} (hop : op.FitsSlice) {m len : Nat}
    (hlen : m * channelNum < len) {q : AudioQueue D S} (h : FramesWithin m q)
    (hbuf : q.bufferingSamples = 0) (fuel : Nat) (v : List S) :
    (q.getNextData op fuel len).map (·.2.result) ≠ some (.ok v) := by
  unfold AudioQueue.getNextData
  rw [if_neg (by omega)]
  intro hr
  obtain ⟨⟨frames, r⟩, hr, heq⟩ := Option.map_eq_some'.mp hr
  obtain ⟨f, hf⟩ := refillLoop_no_slice hop hlen fuel h hr
  simp only [hf] at heq
  cases heq

theorem refillLoop_ok_length {op : Opus D S} {len : Nat} :
    ∀ fuel {q : AudioQueue D S} {frames r} {slice : List S},
      q.refillLoop op len fuel = some (frames, r) → r.result = .ok slice → slice.length = len := by
  intro fuel
  induction fuel with
  | zero =>
    intro q frames r slice h hr
    unfold AudioQueue.refillLoop at h
    split_ifs at h with hlt
    cases h
    cases hr
    simp only [List.length_take, List.length_drop]
    omega
  | succ fuel ih =>
    intro q frames r slice h hr
    unfold AudioQueue.refillLoop at h
    split_ifs at h with hlt
    · dsimp only at h
      split at h
      · cases h
        cases hr
      · obtain ⟨⟨frames', r'⟩, hr', heq⟩ := Option.map_eq_some'.mp h
        cases heq
        exact ih hr' hr
    · cases h
      cases hr
      simp only [List.length_take, List.length_drop]
      omega

/-- `get_next_data` returns the empty slice while buffering, else one of the requested length. -/
theorem getNextData_ok_length {op : Opus D S} {q : AudioQueue D S} {fuel len : Nat} {frames r}
    {slice : List S} (h : q.getNextData op fuel len = some (frames, r))
    (hr : r.result = .ok slice) : slice = [] ∨ slice.length = len := by
  unfold AudioQueue.getNextData at h
  split_ifs at h
  · exact .inr (refillLoop_ok_length fuel h hr)
  · cases h
    cases hr
    exact .inl rfl
  · exact .inr (refillLoop_ok_length fuel h hr)

end Decoding

theorem countingOpus_fitsSlice (n : Nat) : (countingOpus n).FitsSlice := by
  intro d data cap fec d' frames h
  simp only [countingOpus] at h
  split at h
  · split_ifs at h with hcap
    cases h
    simp only [List.length_map, List.length_range, channelNum]
    omega
  · cases h
    simp only [List.length_replicate, channelNum]
    omega

/-- A first 20 ms packet and a buffer of 4096 samples, more than two frames hold: `get_next_data`
never returns a slice, however many passes its refill loop makes. -/
theorem getNextData_never_fills_long_request :
    Reachable (countingOpus 960) (AudioQueue.started 0 960 ⟨0, [0], false⟩) ∧
      ∀ fuel v, ((AudioQueue.started 0 960 ⟨0, [0], false⟩).getNextData (countingOpus 960) fuel
        4096).map (·.2.result) ≠ some (.ok v) := by
  have h : FramesWithin 1920 (AudioQueue.started 0 960 ⟨0, [0], false⟩ : AudioQueue Nat Nat) :=
    ⟨by simp [AudioQueue.started], le_rfl, by simp [AudioQueue.started]⟩
  exact ⟨reachable_started rfl rfl,
    getNextData_no_slice (countingOpus_fitsSlice 960) (by decide) h rfl⟩

/-! ### Leftover samples

Two packets of `n` samples per channel, in order, and two calls asking for `len` samples, with
`n < len < 2n`. The first call decodes packet 0 and returns the first `len` of its `2n`
samples. The second call compacts the buffer to the `2n - len` samples left, decodes packet 1
from position 0 over them, and returns the first `len` samples of packet 1. -/

theorem interleave_counting (b n : Nat) :
    interleave ((List.range n).map fun i => (b + 2 * i, b + 2 * i + 1)) = List.range' b (2 * n) := by
  induction n with
  | zero => rfl
  | succ n ih =>
    rw [List.range_succ, List.map_append, interleave_append, ih,
      show 2 * (n + 1) = 2 * n + 1 + 1 by ring, List.range'_concat, List.range'_concat]
    simp [interleave]
    omega

theorem take_range' {s m k : Nat} (h : k ≤ m) : (List.range' s m).take k = List.range' s k := by
  obtain ⟨j, rfl⟩ := Nat.exists_eq_add_of_le' h
  rw [← List.range'_append_1, List.take_left' (List.length_range' _ _ _)]

/-- The queue after packets 0 and 1 of `n` samples per channel arrive. -/
def twoPackets (n : Nat) : AudioQueue Nat Nat :=
  { AudioQueue.started 0 n ⟨0, [0], false⟩ with
    packetBuffer := [⟨⟨0, [0], false⟩, n, 0⟩, ⟨⟨1, [1], false⟩, n, 1⟩]
    packetBufferSamples := n + n }

theorem addPacket_started_one (n : Nat) :
    (AudioQueue.started 0 n ⟨0, [0], false⟩ : AudioQueue Nat Nat).addPacket (countingOpus n)
      ⟨1, [1], false⟩ = .ok (twoPackets n) := by
  have h₁ : AudioQueue.lastIdAfter [(⟨⟨0, [0], false⟩, n, 0⟩ : QueuePacket)] 1 = .ok 1 := rfl
  have h₂ : AudioQueue.insertIndex [(⟨⟨0, [0], false⟩, n, 0⟩ : QueuePacket)] 1 = 1 := rfl
  simp only [AudioQueue.addPacket, AudioQueue.started, countingOpus, h₁, h₂]
  simp [AudioQueue.bufferingAfter, maxBufferPackets, twoPackets, AudioQueue.started]

namespace AudioQueue

theorem refill_twoPackets {n : Nat} (hn : 0 < n) :
    (twoPackets n).refill (countingOpus n) =
      ⟨{ twoPackets n with
          decoder := 1
          nextId := 1
          packetBuffer := [⟨⟨1, [1], false⟩, n, 1⟩]
          packetBufferSamples := n
          decodedBuffer := List.range' 0 (2 * n)
          lastPacketSamples := n
          lastBufferSamples := [(0, 0), (1, n)]
          curLastBufferSample := 2 }, .ok (List.range' 0 (2 * n))⟩ := by
  have hcap : 2 * n ≤ n * channelNum := by simp only [channelNum]; omega
  rw [refill_of_next _ (compact_of_le le_rfl) rfl (Nat.le_add_right _ _) rfl,
    decodePacket_of_decodeFloat _ _ (countingOpus_decodeFloat n 0 0 [] hcap),
    keepFrames_of_zero _ _ _ _ rfl]
  dsimp only [twoPackets, started, prepareDecode]
  rw [recordBufferSize_of_ok (bufferCount_of_getLast ⟨⟨1, [1], false⟩, n, 1⟩ ?_ ?_) ?_]
  · dsimp only
    have hw : ¬ lastBufferSizeCount < 2 := by decide
    rw [finishRefill_of_min_le]
    · have h0 : interleave ((List.range n).map fun i => (2 * i, 2 * i + 1)) =
          List.range' 0 (2 * n) := by
        simpa using interleave_counting 0 n
      simp [h0, hn.ne', List.dropWhile_cons, hw]
    · simp [getMinQueueSize, hn.ne', List.dropWhile_cons, hw]
  · rfl
  · exact Nat.le_add_left _ _
  · exact (by decide : (1 : UInt16).toNat + 1 < 2 ^ 16)

theorem refill_afterFirst {n len : Nat} (hlen : len < 2 * n) :
    ({ twoPackets n with
        decoder := 1
        nextId := 1
        packetBuffer := [⟨⟨1, [1], false⟩, n, 1⟩]
        packetBufferSamples := n
        decodedBuffer := List.range' 0 (2 * n)
        decodedPos := len
        lastPacketSamples := n
        lastBufferSamples := [(0, 0), (1, n)]
        curLastBufferSample := 2 } : AudioQueue Nat Nat).refill (countingOpus n) =
      ⟨{ twoPackets n with
          decoder := 2
          nextId := 2
          packetBuffer := []
          packetBufferSamples := 0
          decodedBuffer := List.range' (2 * n) (2 * n)
          lastPacketSamples := n
          lastBufferSamples := [(2, 0)]
          curLastBufferSample := 3 }, .ok (List.range' (2 * n) (2 * n))⟩ := by
  have hcap : 2 * n ≤ n * channelNum := by simp only [channelNum]; omega
  have hw : ¬ lastBufferSizeCount < 1 := by decide
  rw [refill_of_next _ (compact_of_lt (by simpa using hlen)) rfl le_rfl rfl,
    decodePacket_of_decodeFloat _ _ (countingOpus_decodeFloat n 1 1 [] hcap),
    keepFrames_of_zero _ _ _ _ rfl]
  dsimp only [twoPackets, started, prepareDecode]
  rw [recordBufferSize_of_ok (bufferCount_of_nil rfl)
      (by exact (by decide : (2 : UInt16).toNat + 1 < 2 ^ 16)),
    finishRefill_of_min_le]
  · have h1 : interleave ((List.range n).map fun i => (2 * n + 2 * i, 2 * n + 2 * i + 1)) =
        List.range' (2 * n) (2 * n) := interleave_counting (2 * n) n
    simp [h1, List.dropWhile_cons, hw]
  · simp [getMinQueueSize, List.dropWhile_cons, hw]

theorem getNextData_twoPackets {n len : Nat} (h1 : n < len) (h2 : len < 2 * n) (fuel : Nat) :
    (twoPackets n).getNextData (countingOpus n) (fuel + 1) len = some ([List.range' 0 (2 * n)],
      ⟨{ twoPackets n with
          decoder := 1
          nextId := 1
          packetBuffer := [⟨⟨1, [1], false⟩, n, 1⟩]
          packetBufferSamples := n
          decodedBuffer := List.range' 0 (2 * n)
          decodedPos := len
          lastPacketSamples := n
          lastBufferSamples := [(0, 0), (1, n)]
          curLastBufferSample := 2 }, .ok (List.range' 0 len)⟩) := by
  rw [getNextData_of_not_buffering rfl,
    refillLoop_succ_of_lt (by simp [twoPackets, started]; omega) (refill_twoPackets (by omega)),
    refillLoop_of_le (by simp [twoPackets, started]; omega)]
  simp [twoPackets, started, take_range' h2.le]

theorem getNextData_afterFirst {n len : Nat} (h1 : n < len) (h2 : len < 2 * n) (fuel : Nat) :
    ({ twoPackets n with
        decoder := 1
        nextId := 1
        packetBuffer := [⟨⟨1, [1], false⟩, n, 1⟩]
        packetBufferSamples := n
        decodedBuffer := List.range' 0 (2 * n)
        decodedPos := len
        lastPacketSamples := n
        lastBufferSamples := [(0, 0), (1, n)]
        curLastBufferSample := 2 } : AudioQueue Nat Nat).getNextData (countingOpus n) (fuel + 1) len =
      some ([List.range' (2 * n) (2 * n)],
        ⟨{ twoPackets n with
            decoder := 2
            nextId := 2
            packetBuffer := []
            packetBufferSamples := 0
            decodedBuffer := List.range' (2 * n) (2 * n)
            decodedPos := len
            lastPacketSamples := n
            lastBufferSamples := [(2, 0)]
            curLastBufferSample := 3 }, .ok (List.range' (2 * n) len)⟩) := by
  rw [getNextData_of_not_buffering rfl,
    refillLoop_succ_of_lt (by simp; omega) (refill_afterFirst h2),
    refillLoop_of_le (by simp [twoPackets, started]; omega)]
  simp [twoPackets, started, take_range' h2.le]

end AudioQueue

theorem not_prefix_of_skip {len n : Nat} (h0 : 0 < len) (h1 : len < 2 * n) :
    ¬ List.range' 0 len ++ List.range' (2 * n) len <+:
      List.range' 0 (2 * n) ++ List.range' (2 * n) (2 * n) := by
  intro h
  have := @List.IsPrefix.getElem _ _ _ h len (by simp; omega)
  simp [List.getElem_append_right, List.getElem_append_left, h1] at this
  omega

/-- Two 20 ms packets and two calls of `get_next_data(1000)`: samples 1000 to 1919 of packet 0
are never returned. -/
theorem getNextData_skips_leftover :
    Reachable (countingOpus 960) (twoPackets 960) ∧
      ∃ q r, (twoPackets 960).getNextData (countingOpus 960) 1 1000 =
          some ([List.range' 0 1920], ⟨q, .ok (List.range' 0 1000)⟩) ∧
        q.getNextData (countingOpus 960) 1 1000 =
          some ([List.range' 1920 1920], ⟨r, .ok (List.range' 1920 1000)⟩) ∧
        ¬ List.range' 0 1000 ++ List.range' 1920 1000 <+: List.range' 0 1920 ++ List.range' 1920 1920 :=
  ⟨.addPacket (reachable_started rfl rfl) (addPacket_started_one 960),
    _, _, AudioQueue.getNextData_twoPackets (by decide) (by decide) 0,
    AudioQueue.getNextData_afterFirst (by decide) (by decide) 0,
    @not_prefix_of_skip 1000 960 (by decide) (by decide)⟩

end TsClient.Audio
