import TsClient.Audio.Output

/-!
The three ends of a refill pass of `get_next_data` besides the plain decode.

*Truncation.* When more than `MAX_BUFFER_SIZE` samples stayed buffered over the whole window,
the pass keeps the packets at the back whose running sum, counted from the back, stays below
`min`. So the packets kept sum to less than `min`, and the packet at which the sum reaches
`min` is dropped with the older ones (`adjustBuffer_truncate`).

*Packet loss.* The loss branch pops a packet, decodes the missing one, and pushes the packet
back only after the decode returned: when the decode fails, the popped packet is gone from the
queue and from its sample count (`refillLoop_loss_error_drops_packet`).

*Speed-up.* Cut the frame just decoded into chunks of `SPEED_CHANGE_STEPS` stereo frames; the
speed-up drains the first stereo frame of every whole chunk and nothing else. Each drain index
steps by `SPEED_CHANGE_STEPS - 1` frames because every earlier drain moved the rest of the frame
one stereo frame to the front (`adjustBuffer_speedUp`).
-/

namespace TsClient.Audio

variable {D S : Type}

/-! ### Truncation -/

/-- The running sum stays below `min` over the packets counted, and reaches it at the next. -/
theorem keepCount_spec (min : Nat) : ∀ (acc : Nat) (l : List QueuePacket),
    keepCount min acc l ≤ l.length ∧
      (keepCount min acc l = 0 ∨ acc + ((l.take (keepCount min acc l)).map (·.samples)).sum < min) ∧
      (keepCount min acc l < l.length →
        min ≤ acc + ((l.take (keepCount min acc l + 1)).map (·.samples)).sum)
  | _, [] => by simp [keepCount]
  | acc, p :: ps => by
    obtain ⟨hle, hlt, hge⟩ := keepCount_spec min (acc + p.samples) ps
    simp only [keepCount]
    split_ifs with h
    · simp only [List.length_cons, List.take_succ_cons, List.map_cons, List.sum_cons]
      refine ⟨by omega, .inr ?_, fun hk => ?_⟩
      · rcases hlt with h0 | hlt
        · simp [h0, h]
        · omega
      · have := hge (by omega)
        omega
    · refine ⟨Nat.zero_le _, .inl rfl, fun _ => ?_⟩
      simp only [Nat.zero_add, List.take_succ_cons, List.take_zero, List.map_cons, List.map_nil,
        List.sum_cons, List.sum_nil]
      omega

theorem sum_drop_eq_sum_reverse_take (l : List QueuePacket) (j : Nat) :
    ((l.drop (l.length - j)).map (·.samples)).sum = ((l.reverse.take j).map (·.samples)).sum := by
  rw [List.take_reverse, List.map_reverse, List.sum_reverse]

namespace AudioQueue

theorem truncate_packetBuffer (q : AudioQueue D S) (min : Nat) :
    (q.truncate min).packetBuffer <:+ q.packetBuffer ∧
      ((q.truncate min).packetBuffer = [] ∨
        ((q.truncate min).packetBuffer.map (·.samples)).sum < min) ∧
      ∀ t, t <:+ q.packetBuffer → t.length = (q.truncate min).packetBuffer.length + 1 →
        min ≤ (t.map (·.samples)).sum := by
  obtain ⟨hle, hlt, hge⟩ := keepCount_spec min 0 q.packetBuffer.reverse
  simp only [truncate]
  generalize keepCount min 0 q.packetBuffer.reverse = k at hle hlt hge ⊢
  simp only [List.length_reverse, Nat.zero_add] at hle hlt hge
  refine ⟨List.drop_suffix _ _, ?_, fun t ht hlen => ?_⟩
  · rw [sum_drop_eq_sum_reverse_take]
    exact hlt.imp (fun _ => List.drop_eq_nil_of_le (by omega)) id
  · have hk : t.length = k + 1 := by
      rw [hlen, List.length_drop]
      omega
    rw [List.suffix_iff_eq_drop.mp ht, hk, sum_drop_eq_sum_reverse_take]
    exact hge (by have := ht.length_le; omega)

/-- Past `MAX_BUFFER_SIZE`, the pass keeps the longest suffix of the queue below `min`, with its
sum as the sample count and its first id as `next_id`. -/
theorem adjustBuffer_truncate (q : AudioQueue D S)
    (h : maxBufferSize < q.getMinQueueSize - q.lastPacketSamples) :
    q.adjustBuffer.result = .ok () ∧
      q.adjustBuffer.state.packetBuffer <:+ q.packetBuffer ∧
      (q.adjustBuffer.state.packetBuffer = [] ∨
        (q.adjustBuffer.state.packetBuffer.map (·.samples)).sum < q.getMinQueueSize) ∧
      (∀ t, t <:+ q.packetBuffer → t.length = q.adjustBuffer.state.packetBuffer.length + 1 →
        q.getMinQueueSize ≤ (t.map (·.samples)).sum) ∧
      q.adjustBuffer.state.packetBufferSamples =
        (q.adjustBuffer.state.packetBuffer.map (·.samples)).sum ∧
      q.adjustBuffer.state.nextId = (q.adjustBuffer.state.packetBuffer.head?.map (·.id)).getD q.nextId := by
  have ha : q.adjustBuffer = ⟨q.truncate q.getMinQueueSize, .ok ()⟩ := by
    simp only [adjustBuffer, if_pos h]
  obtain ⟨hsuf, hlt, hge⟩ := q.truncate_packetBuffer q.getMinQueueSize
  rw [ha]
  refine ⟨rfl, hsuf, hlt, hge, rfl, ?_⟩
  simp only [truncate]
  cases (List.drop _ q.packetBuffer).head? <;> rfl

end AudioQueue

/-- Six 5760-sample packets under a `min` of 30960, which six packets reach and five do not. -/
def longQueue : AudioQueue Nat Nat :=
  { decoder := 0, nextId := 0, whispering := false,
    packetBuffer := (List.range 6).map fun k => ⟨⟨k.toUInt16, [], false⟩, 5760, k.toUInt16⟩,
    packetBufferSamples := 34560, decodedBuffer := [], decodedPos := 0, lastPacketSamples := 960,
    packetLossNum := 0, bufferingSamples := 0, lastBufferSamples := [(0, 30000)],
    curLastBufferSample := 1, bufferedForSamples := 0 }

theorem adjustBuffer_truncate_longQueue :
    maxBufferSize < longQueue.getMinQueueSize - longQueue.lastPacketSamples ∧
      (longQueue.adjustBuffer.result = .ok () ∧
        longQueue.adjustBuffer.state.packetBuffer <:+ longQueue.packetBuffer ∧
        (longQueue.adjustBuffer.state.packetBuffer = [] ∨
          (longQueue.adjustBuffer.state.packetBuffer.map (·.samples)).sum <
            longQueue.getMinQueueSize) ∧
        (∀ t, t <:+ longQueue.packetBuffer →
          t.length = longQueue.adjustBuffer.state.packetBuffer.length + 1 →
          longQueue.getMinQueueSize ≤ (t.map (·.samples)).sum) ∧
        longQueue.adjustBuffer.state.packetBufferSamples =
          (longQueue.adjustBuffer.state.packetBuffer.map (·.samples)).sum ∧
        longQueue.adjustBuffer.state.nextId =
          (longQueue.adjustBuffer.state.packetBuffer.head?.map (·.id)).getD longQueue.nextId) ∧
      longQueue.getMinQueueSize ≤ (longQueue.packetBuffer.map (·.samples)).sum ∧
      longQueue.adjustBuffer.state.packetBuffer = longQueue.packetBuffer.drop 1 :=
  ⟨by decide, AudioQueue.adjustBuffer_truncate longQueue (by decide), by decide, by decide⟩

/-! ### Packet loss -/

section Decoding

variable [Zero S]

namespace AudioQueue

theorem decodeLoss_of_error {op : Opus D S} {q : AudioQueue D S} {packet : QueuePacket}
    {f : Failure} (h : (q.decodeLoss op packet).result = .error f) :
    SamePackets q (q.decodeLoss op packet).state := by
  have hr : SamePackets q (if packet.id = q.nextId then q.decodePacket op (some packet) true
      else q.decodePacket op none false).state := by
    split_ifs <;> exact decodePacket_same _ _ _ _
  dsimp only [decodeLoss] at h ⊢
  generalize (if packet.id = q.nextId then _ else _) = r at hr h ⊢
  rcases hres : r.result with f' | ⟨⟩
  · simpa only [hres] using hr
  · simp only [hres] at h
    cases h

/-- A failed loss-branch decode returns with the popped packet gone from the queue and count. -/
theorem refillLoop_loss_error_drops_packet {op : Opus D S} {len fuel : Nat} {q c : AudioQueue D S}
    {p : QueuePacket} {rest : List QueuePacket} {f : Failure}
    (hlen : q.decodedBuffer.length < q.decodedPos + len) (hc : q.compact = c)
    (hq : c.packetBuffer = p :: rest) (hs : p.samples ≤ c.packetBufferSamples)
    (hloss : c.nextId < p.id)
    (hdec : ({ c with
        packetBuffer := rest
        packetBufferSamples := c.packetBufferSamples - p.samples
        nextId := c.nextId + 1 }.decodeLoss op p).result = .error f) :
    ∃ q', q.refillLoop op len (fuel + 1) = some ([], ⟨q', .error f⟩) ∧
      q'.packetBuffer = rest ∧ q'.packetBufferSamples = c.packetBufferSamples - p.samples := by
  obtain ⟨hb, hbs, -⟩ := decodeLoss_of_error hdec
  refine ⟨_, ?_, hb, hbs⟩
  have hr : q.refill op = ⟨({ c with
      packetBuffer := rest
      packetBufferSamples := c.packetBufferSamples - p.samples
      nextId := c.nextId + 1 }.decodeLoss op p).state, .error f⟩ := by
    simp only [refill, hc, hq, subUsize_of_le hs, if_pos hloss, finishRefill, hdec]
  rw [refillLoop, if_pos hlen]
  simp only [hr]

end AudioQueue

def failingOpus : Opus Nat Nat where
  nbSamples _ := .ok 960
  decoderNew := .ok 0
  decodeFloat _ _ _ _ := .error "corrupted stream"

def lossQueue : AudioQueue Nat Nat :=
  { decoder := 0, nextId := 0, whispering := false, packetBuffer := [⟨⟨2, [2], false⟩, 960, 2⟩],
    packetBufferSamples := 960, decodedBuffer := [], decodedPos := 0, lastPacketSamples := 960,
    packetLossNum := 0, bufferingSamples := 0, lastBufferSamples := [(0, 0)],
    curLastBufferSample := 1, bufferedForSamples := 0 }

theorem refillLoop_loss_error_lossQueue :
    lossQueue.packetBuffer = [⟨⟨2, [2], false⟩, 960, 2⟩] ∧
      ∃ q', lossQueue.refillLoop failingOpus 1920 1 =
        some ([], ⟨q', .error (.err "corrupted stream")⟩) ∧
        q'.packetBuffer = [] ∧ q'.packetBufferSamples = 0 :=
  ⟨rfl, @AudioQueue.refillLoop_loss_error_drops_packet _ _ _ failingOpus 1920 0 lossQueue lossQueue
    ⟨⟨2, [2], false⟩, 960, 2⟩ [] _ (by decide) rfl rfl (by decide) (by decide) rfl⟩

end Decoding

/-! ### Speed-up -/

theorem interleave_cons (x : S × S) (xs : List (S × S)) :
    interleave (x :: xs) = x.1 :: x.2 :: interleave xs := by
  cases x
  rfl

theorem drain_interleave (pre : List S) (B C : List (S × S)) (x : S × S) :
    drain (pre ++ interleave (B ++ x :: C)) (pre.length + 2 * B.length)
      (pre.length + 2 * B.length + channelNum) = .ok (pre ++ interleave (B ++ C)) := by
  have hB : (pre ++ interleave B).length = pre.length + 2 * B.length := by simp
  have hx : (pre ++ interleave B ++ [x.1, x.2]).length = pre.length + 2 * B.length + channelNum := by
    simp [channelNum]
    omega
  rw [drain, if_pos (by simp [channelNum]; omega), interleave_append, interleave_cons,
    interleave_append, ← List.append_assoc, List.take_left' hB, ← hx,
    show pre ++ interleave B ++ x.1 :: x.2 :: interleave C =
      pre ++ interleave B ++ [x.1, x.2] ++ interleave C by simp, List.drop_left, List.append_assoc]

theorem length_chunks {α : Type} {n : Nat} :
    ∀ {cs : List (α × List α)}, (∀ c ∈ cs, c.2.length = n) →
      ((cs.map fun c => c.1 :: c.2).flatten).length = cs.length * (n + 1)
  | [], _ => by simp
  | c :: cs, h => by
    have ih := length_chunks fun c hc => h c (List.mem_cons_of_mem _ hc)
    simp only [List.map_cons, List.flatten_cons, List.length_append, List.length_cons, ih,
      h c (List.mem_cons_self _ _)]
    ring

theorem exists_chunks {α : Type} (n : Nat) (frames : List α) :
    ∃ (cs : List (α × List α)) (rest : List α),
      frames = (cs.map fun c => c.1 :: c.2).flatten ++ rest ∧ (∀ c ∈ cs, c.2.length = n) ∧
        rest.length ≤ n := by
  match frames with
  | [] => exact ⟨[], [], rfl, by simp, Nat.zero_le _⟩
  | x :: t =>
    if h : t.length < n then exact ⟨[], x :: t, rfl, by simp, h⟩
    else
      obtain ⟨cs, rest, hcs, hlen, hrest⟩ := exists_chunks n (t.drop n)
      refine ⟨(x, t.take n) :: cs, rest, ?_, ?_, hrest⟩
      · simp only [List.map_cons, List.flatten_cons, List.cons_append, List.append_assoc, ← hcs,
          List.take_append_drop]
      · simp only [List.mem_cons, forall_eq_or_imp, List.length_take]
        exact ⟨by omega, hlen⟩
termination_by frames.length

/-- From drain `d` on, each drain takes the first stereo frame of its chunk. -/
theorem speedUp_chunks (pre : List S) :
    ∀ (cs : List ((S × S) × List (S × S))) (d : Nat) (B rest : List (S × S)),
      B.length = d * (speedChangeSteps - 1) → (∀ c ∈ cs, c.2.length = speedChangeSteps - 1) →
      speedUp pre.length (List.range' d cs.length)
          (pre ++ interleave (B ++ (cs.map fun c => c.1 :: c.2).flatten ++ rest)) =
        .ok (pre ++ interleave (B ++ (cs.map Prod.snd).flatten ++ rest))
  | [], _, _, _, _, _ => by simp [speedUp]
  | (x, c) :: cs, d, B, rest, hB, hcs => by
    have hc : c.length = speedChangeSteps - 1 := hcs _ (List.mem_cons_self _ _)
    have ih := speedUp_chunks pre cs (d + 1) (B ++ c) rest (by simp [hB, hc]; ring)
      fun c h => hcs c (List.mem_cons_of_mem _ h)
    have hj : pre.length + d * (speedChangeSteps - 1) * channelNum = pre.length + 2 * B.length := by
      rw [hB, channelNum]
      ring
    have hdrain := drain_interleave pre B (c ++ ((cs.map fun c => c.1 :: c.2).flatten ++ rest)) x
    simp only [List.length_cons, List.range'_succ, speedUp, hj]
    simp only [List.map_cons, List.flatten_cons, List.cons_append, List.append_assoc] at ih ⊢
    rw [hdrain]
    exact ih

namespace AudioQueue

/-- The speed-up drops the first stereo frame of every whole chunk of `SPEED_CHANGE_STEPS`
frames of the frame just decoded, and keeps every other sample in order. -/
theorem adjustBuffer_speedUp {q : AudioQueue D S} {pre : List S} {frames : List (S × S)}
    (hbuf : q.decodedBuffer = pre ++ interleave frames) (hlps : q.lastPacketSamples = frames.length)
    (hno : ¬ maxBufferSize < q.getMinQueueSize - q.lastPacketSamples)
    (hmin : q.lastPacketSamples < q.getMinQueueSize) :
    ∃ (cs : List ((S × S) × List (S × S))) (rest : List (S × S)),
      frames = (cs.map fun c => c.1 :: c.2).flatten ++ rest ∧
      (∀ c ∈ cs, c.2.length = speedChangeSteps - 1) ∧ rest.length < speedChangeSteps ∧
      q.adjustBuffer =
        ⟨{ q with decodedBuffer := pre ++ interleave ((cs.map Prod.snd).flatten ++ rest) }, .ok ()⟩ := by
  obtain ⟨cs, rest, hfr, hcs, hrest⟩ := exists_chunks (speedChangeSteps - 1) frames
  have hlen := length_chunks hcs
  have hm : q.lastPacketSamples / speedChangeSteps = cs.length := by
    rw [hlps, hfr, List.length_append, hlen]
    simp only [speedChangeSteps] at hrest ⊢
    omega
  have hstart : subUsize q.decodedBuffer.length (q.lastPacketSamples * channelNum) =
      .ok pre.length := by
    rw [subUsize_of_le (by simp [hbuf, hlps, channelNum]; omega)]
    simp [hbuf, hlps, channelNum]
    omega
  have hs := speedUp_chunks pre cs 0 [] rest rfl hcs
  simp only [List.nil_append, ← hfr, ← hbuf] at hs
  refine ⟨cs, rest, hfr, hcs, by simp only [speedChangeSteps] at hrest ⊢; omega, ?_⟩
  simp only [adjustBuffer, if_neg hno, if_pos hmin, hstart, hm, List.range_eq_range', hs]

end AudioQueue

/-- A frame of 150 silent stereo frames just decoded, under a window minimum of 1000 samples. -/
def speedUpQueue : AudioQueue Nat Nat :=
  { decoder := 0, nextId := 0, whispering := false, packetBuffer := [], packetBufferSamples := 0,
    decodedBuffer := interleave (List.replicate 150 (0, 0)), decodedPos := 0,
    lastPacketSamples := 150, packetLossNum := 0, bufferingSamples := 0,
    lastBufferSamples := [(0, 1000)], curLastBufferSample := 1, bufferedForSamples := 0 }

theorem adjustBuffer_speedUp_speedUpQueue :
    ¬ maxBufferSize < speedUpQueue.getMinQueueSize - speedUpQueue.lastPacketSamples ∧
      speedUpQueue.lastPacketSamples < speedUpQueue.getMinQueueSize ∧
      ∃ (cs : List ((Nat × Nat) × List (Nat × Nat))) (rest : List (Nat × Nat)),
        List.replicate 150 (0, 0) = (cs.map fun c => c.1 :: c.2).flatten ++ rest ∧
        (∀ c ∈ cs, c.2.length = speedChangeSteps - 1) ∧ rest.length < speedChangeSteps ∧
        speedUpQueue.adjustBuffer = ⟨{ speedUpQueue with
          decodedBuffer := [] ++ interleave ((cs.map Prod.snd).flatten ++ rest) }, .ok ()⟩ :=
  ⟨by decide, by decide,
    @AudioQueue.adjustBuffer_speedUp _ _ speedUpQueue [] _ rfl rfl (by decide) (by decide)⟩

end TsClient.Audio
