import TsClient.Audio.Queue

/-!
The decoding side of `AudioQueue`: `decode_packet` and `get_next_data`. One pass of the
refill loop of `get_next_data` is `refill`: compact `decoded_buffer`, pop a packet and decode
it (or conceal a loss), then truncate the queue or speed up the frame just decoded. `refill`
also returns that frame as the speed-up left it; the loop `refillLoop` lists these frames.
The `while` loop runs on fuel: `none` means the fuel ran out before the loop exited.
-/

namespace TsClient.Audio

variable {D S : Type}

def resize [Zero S] (xs : List S) (n : Nat) : List S :=
  xs.take n ++ List.replicate (n - xs.length) 0

/-- Writing `ys` into `xs` from index `pos` on. -/
def writeFrom (xs : List S) (pos : Nat) (ys : List S) : List S :=
  xs.take pos ++ ys ++ xs.drop (pos + ys.length)

def interleave : List (S × S) → List S
  | [] => []
  | (l, r) :: frames => l :: r :: interleave frames

/-- `Vec::drain(a..b)`, which panics when `b` is past the end. -/
def drain (xs : List S) (a b : Nat) : Except Failure (List S) :=
  if a ≤ b ∧ b ≤ xs.length then .ok (xs.take a ++ xs.drop b)
  else .error (.panic "range end index out of range for slice")

/-- The speed-up loop: drain the stereo frame at `start + i * (SPEED_CHANGE_STEPS - 1) * 2`. -/
def speedUp (start : Nat) : List Nat → List S → Except Failure (List S)
  | [], xs => .ok xs
  | i :: is, xs =>
    let j := start + i * (speedChangeSteps - 1) * channelNum
    match drain xs j (j + channelNum) with
    | .error f => .error f
    | .ok xs => speedUp start is xs

/-- The `take_while` of the truncation, `keep_samples += p.samples; keep_samples < min`. -/
def keepCount (min : Nat) : Nat → List QueuePacket → Nat
  | _, [] => 0
  | acc, p :: ps => if acc + p.samples < min then keepCount min (acc + p.samples) ps + 1 else 0

namespace AudioQueue

/-- The queued samples plus `last_packet_samples` per id missing before the last packet. -/
def bufferCount (q : AudioQueue D S) : Except Failure Nat :=
  match q.packetBuffer.getLast? with
  | some last =>
    match subUsize ((last.id - q.nextId).toNat + 1) q.packetBuffer.length with
    | .error f => .error f
    | .ok missing => .ok (q.packetBufferSamples + missing * q.lastPacketSamples)
  | none => .ok q.packetBufferSamples

def recordBufferSize (q : AudioQueue D S) : Outcome (AudioQueue D S) Unit :=
  match q.bufferCount with
  | .error f => ⟨q, .error f⟩
  | .ok count =>
    match q.addBufferSize count with
    | .error f => ⟨q, .error f⟩
    | .ok q => ⟨q, .ok ()⟩

/-- The start of a refill pass: drop the samples already returned. -/
def compact (q : AudioQueue D S) : AudioQueue D S :=
  if q.decodedPos < q.decodedBuffer.length then
    if 0 < q.decodedPos then
      { q with decodedBuffer := q.decodedBuffer.drop q.decodedPos, decodedPos := 0 }
    else q
  else { q with decodedBuffer := [], decodedPos := 0 }

def truncate (q : AudioQueue D S) (min : Nat) : AudioQueue D S :=
  let buffer := q.packetBuffer.drop (q.packetBuffer.length - keepCount min 0 q.packetBuffer.reverse)
  { q with
    packetBuffer := buffer
    packetBufferSamples := (buffer.map (·.samples)).sum
    nextId := match buffer.head? with
      | some p => p.id
      | none => q.nextId }

/-- The end of a refill pass: truncate past `MAX_BUFFER_SIZE`, else speed up when buffered. -/
def adjustBuffer (q : AudioQueue D S) : Outcome (AudioQueue D S) Unit :=
  let min := q.getMinQueueSize
  if maxBufferSize < min - q.lastPacketSamples then ⟨q.truncate min, .ok ()⟩
  else if q.lastPacketSamples < min then
    match subUsize q.decodedBuffer.length (q.lastPacketSamples * channelNum) with
    | .error f => ⟨q, .error f⟩
    | .ok start =>
      match speedUp start (List.range (q.lastPacketSamples / speedChangeSteps)) q.decodedBuffer with
      | .error f => ⟨q, .error f⟩
      | .ok buffer => ⟨{ q with decodedBuffer := buffer }, .ok ()⟩
  else ⟨q, .ok ()⟩

def finishRefill (pos : Nat) (r : Outcome (AudioQueue D S) Unit) : Outcome (AudioQueue D S) (List S) :=
  match r.result with
  | .error f => ⟨r.state, .error f⟩
  | .ok () =>
    let a := r.state.adjustBuffer
    ⟨a.state, a.result.map fun () => a.state.decodedBuffer.drop pos⟩

theorem compact_same (q : AudioQueue D S) : SamePackets q q.compact := by
  unfold compact
  split_ifs <;> exact ⟨rfl, rfl, rfl⟩

theorem recordBufferSize_same (q : AudioQueue D S) : SamePackets q q.recordBufferSize.state := by
  unfold recordBufferSize
  split
  · exact ⟨rfl, rfl, rfl⟩
  · split
    · exact ⟨rfl, rfl, rfl⟩
    · rename_i h
      obtain ⟨l, c, rfl⟩ := addBufferSize_eq h
      exact ⟨rfl, rfl, rfl⟩

theorem adjustBuffer_cases (q : AudioQueue D S) :
    q.adjustBuffer.state = q.truncate q.getMinQueueSize ∨ SamePackets q q.adjustBuffer.state := by
  dsimp only [adjustBuffer]
  split_ifs
  · exact .inl rfl
  · split
    · exact .inr ⟨rfl, rfl, rfl⟩
    · split <;> exact .inr ⟨rfl, rfl, rfl⟩
  · exact .inr ⟨rfl, rfl, rfl⟩

theorem finishRefill_state (pos : Nat) (r : Outcome (AudioQueue D S) Unit) :
    (finishRefill pos r).state = r.state ∨
      (finishRefill pos r).state = r.state.adjustBuffer.state := by
  unfold finishRefill
  split
  · exact .inl rfl
  · exact .inr rfl

theorem compact_of_le {q : AudioQueue D S} (h : q.decodedBuffer.length ≤ q.decodedPos) :
    q.compact = { q with decodedBuffer := [], decodedPos := 0 } := by
  rw [compact, if_neg (by omega)]

theorem compact_of_lt {q : AudioQueue D S} (h : q.decodedPos < q.decodedBuffer.length) :
    q.compact = { q with decodedBuffer := q.decodedBuffer.drop q.decodedPos, decodedPos := 0 } := by
  rw [compact, if_pos h]
  split_ifs with hpos
  · rfl
  · obtain ⟨⟩ := q
    simp_all

theorem bufferCount_of_nil {q : AudioQueue D S} (h : q.packetBuffer = []) :
    q.bufferCount = .ok q.packetBufferSamples := by
  simp only [bufferCount, h, List.getLast?_nil]

theorem bufferCount_of_getLast {q : AudioQueue D S} (last : QueuePacket)
    (hl : q.packetBuffer.getLast? = some last)
    (hm : q.packetBuffer.length ≤ (last.id - q.nextId).toNat + 1) :
    q.bufferCount = .ok (q.packetBufferSamples +
      ((last.id - q.nextId).toNat + 1 - q.packetBuffer.length) * q.lastPacketSamples) := by
  simp only [bufferCount, hl, subUsize_of_le hm]

theorem recordBufferSize_of_ok {q : AudioQueue D S} {count : Nat}
    (hc : q.bufferCount = .ok count) (h : q.curLastBufferSample.toNat + 1 < 2 ^ 16) :
    q.recordBufferSize = ⟨{ q with
      lastBufferSamples := ((q.lastBufferSamples.reverse.dropWhile fun e => count ≤ e.2).reverse ++
        [(q.curLastBufferSample, count)]).dropWhile fun e =>
          lastBufferSizeCount < q.curLastBufferSample + 1 - e.1
      curLastBufferSample := q.curLastBufferSample + 1 }, .ok ()⟩ := by
  have h1 : (1 : UInt16).toNat = 1 := rfl
  simp only [recordBufferSize, hc, addBufferSize, addU16, h1, h, if_true]

theorem adjustBuffer_of_min_le {q : AudioQueue D S} (h : q.getMinQueueSize ≤ q.lastPacketSamples) :
    q.adjustBuffer = ⟨q, .ok ()⟩ := by
  simp only [adjustBuffer]
  rw [if_neg (by omega), if_neg (by omega)]

theorem finishRefill_of_min_le (pos : Nat) {q : AudioQueue D S}
    (h : q.getMinQueueSize ≤ q.lastPacketSamples) :
    finishRefill pos ⟨q, .ok ()⟩ = ⟨q, .ok (q.decodedBuffer.drop pos)⟩ := by
  simp only [finishRefill, adjustBuffer_of_min_le h]
  rfl

section Decoding

variable [Zero S]

def decodeLen (q : AudioQueue D S) : Option QueuePacket → Nat
  | some p => p.samples
  | none => q.lastPacketSamples

/-- `decode_packet` up to the decoder call: count a loss and resize `decoded_buffer`. -/
def prepareDecode (q : AudioQueue D S) (packet : Option QueuePacket) : AudioQueue D S :=
  { q with
    whispering := match packet with
      | some p => p.packet.whisper
      | none => q.whispering
    packetLossNum := q.packetLossNum + 1
    decodedBuffer := resize q.decodedBuffer (q.decodedPos + q.decodeLen packet * channelNum) }

/-- `decode_packet` after the decoder wrote `frames`: a normal decode clears the loss count. -/
def keepFrames (q : AudioQueue D S) (decoder : D) (frames : List (S × S)) (normal : Bool) :
    AudioQueue D S :=
  { q with
    decoder
    lastPacketSamples := frames.length
    decodedBuffer := (writeFrom q.decodedBuffer q.decodedPos (interleave frames)).take
      (q.decodedPos + frames.length * channelNum)
    packetLossNum := if normal then 0 else q.packetLossNum }

/-- `decode_packet`: decode `packet`, or conceal a loss when it is `none`. -/
def decodePacket (op : Opus D S) (q : AudioQueue D S) (packet : Option QueuePacket)
    (fec : Bool) : Outcome (AudioQueue D S) Unit :=
  let q := q.prepareDecode packet
  match op.decodeFloat q.decoder (packet.map (·.packet.payload)) (q.decodeLen packet * channelNum) fec with
  | .error e => ⟨q, .error (.err e)⟩
  | .ok (decoder, frames) => (q.keepFrames decoder frames (packet.isSome && !fec)).recordBufferSize

/-- The loss branch after `packet` was popped: error correction from `packet` when it is the
next one, else concealment; then `packet` is pushed back. -/
def decodeLoss (op : Opus D S) (q : AudioQueue D S) (packet : QueuePacket) :
    Outcome (AudioQueue D S) Unit :=
  let r := if packet.id = q.nextId then q.decodePacket op (some packet) true
    else q.decodePacket op none false
  match r.result with
  | .error f => ⟨r.state, .error f⟩
  | .ok () => ⟨{ r.state with
      packetBufferSamples := r.state.packetBufferSamples + packet.samples
      packetBuffer := packet :: r.state.packetBuffer }, .ok ()⟩

def refill (op : Opus D S) (q : AudioQueue D S) : Outcome (AudioQueue D S) (List S) :=
  let q := q.compact
  match q.packetBuffer with
  | [] => finishRefill q.decodedPos (q.decodePacket op none false)
  | packet :: rest =>
    match subUsize q.packetBufferSamples packet.samples with
    | .error f => ⟨{ q with packetBuffer := rest }, .error f⟩
    | .ok pbs =>
      let curId := q.nextId
      let q := { q with packetBuffer := rest, packetBufferSamples := pbs, nextId := q.nextId + 1 }
      if curId < packet.id then finishRefill q.decodedPos (q.decodeLoss op packet)
      else if packet.id = curId then
        finishRefill q.decodedPos (q.decodePacket op (some packet) false)
      else ⟨q, .error (.panic "Invalid packet queue state")⟩

/-- The `while` loop of `get_next_data` on `fuel` passes: the frames decoded and the result. -/
def refillLoop (op : Opus D S) (len : Nat) :
    Nat → AudioQueue D S → Option (List (List S) × Outcome (AudioQueue D S) (List S))
  | fuel, q =>
    if q.decodedBuffer.length < q.decodedPos + len then
      match fuel with
      | 0 => none
      | fuel + 1 =>
        let r := q.refill op
        match r.result with
        | .error f => some ([], ⟨r.state, .error f⟩)
        | .ok frame => (refillLoop op len fuel r.state).map fun (frames, r) => (frame :: frames, r)
    else some ([], ⟨{ q with decodedPos := q.decodedPos + len },
      .ok ((q.decodedBuffer.drop q.decodedPos).take len)⟩)

/-- `get_next_data`; while buffering it returns the empty slice, up to `MAX_BUFFER_TIME`. -/
def getNextData (op : Opus D S) (fuel : Nat) (q : AudioQueue D S) (len : Nat) :
    Option (List (List S) × Outcome (AudioQueue D S) (List S)) :=
  if 0 < q.bufferingSamples then
    if maxBufferTime ≤ q.bufferedForSamples then
      refillLoop op len fuel { q with bufferingSamples := 0, bufferedForSamples := 0 }
    else some ([], ⟨{ q with bufferedForSamples := q.bufferedForSamples + len }, .ok []⟩)
  else refillLoop op len fuel q

theorem refillLoop_of_le {op : Opus D S} {len fuel : Nat} {q : AudioQueue D S}
    (h : q.decodedPos + len ≤ q.decodedBuffer.length) :
    q.refillLoop op len fuel = some ([], ⟨{ q with decodedPos := q.decodedPos + len },
      .ok ((q.decodedBuffer.drop q.decodedPos).take len)⟩) := by
  unfold refillLoop
  rw [if_neg (by omega)]

theorem refillLoop_succ_of_lt {op : Opus D S} {len fuel : Nat} {q q' : AudioQueue D S}
    {frame : List S} (h : q.decodedBuffer.length < q.decodedPos + len)
    (hr : q.refill op = ⟨q', .ok frame⟩) :
    q.refillLoop op len (fuel + 1) =
      (q'.refillLoop op len fuel).map fun (frames, r) => (frame :: frames, r) := by
  rw [refillLoop, if_pos h]
  simp only [hr]

theorem getNextData_of_not_buffering {op : Opus D S} {fuel len : Nat} {q : AudioQueue D S}
    (h : q.bufferingSamples = 0) : q.getNextData op fuel len = q.refillLoop op len fuel := by
  rw [getNextData, if_neg (by omega)]

theorem decodePacket_of_decodeFloat {op : Opus D S} (q : AudioQueue D S) (p : Option QueuePacket)
    {fec : Bool} {d : D} {frames : List (S × S)}
    (h : op.decodeFloat q.decoder (p.map (·.packet.payload)) (q.decodeLen p * channelNum) fec =
      .ok (d, frames)) :
    q.decodePacket op p fec =
      ((q.prepareDecode p).keepFrames d frames (p.isSome && !fec)).recordBufferSize := by
  have hl : (q.prepareDecode p).decodeLen p = q.decodeLen p := by cases p <;> rfl
  simp only [decodePacket]
  rw [show (q.prepareDecode p).decoder = q.decoder from rfl, hl, h]

theorem refill_of_next (op : Opus D S) {q c : AudioQueue D S} {p : QueuePacket}
    {rest : List QueuePacket} (hc : q.compact = c) (hq : c.packetBuffer = p :: rest)
    (hs : p.samples ≤ c.packetBufferSamples) (hid : p.id = c.nextId) :
    q.refill op = finishRefill c.decodedPos ({ c with
        packetBuffer := rest
        packetBufferSamples := c.packetBufferSamples - p.samples
        nextId := c.nextId + 1 }.decodePacket op (some p) false) := by
  have hlt : ¬ c.nextId < c.nextId := by simp [UInt16.lt_iff_toNat_lt]
  simp only [refill, hc, hq, subUsize_of_le hs, hid, hlt, if_false, if_true]

theorem decodePacket_same (op : Opus D S) (q : AudioQueue D S) (p : Option QueuePacket)
    (fec : Bool) : SamePackets q (q.decodePacket op p fec).state := by
  dsimp only [decodePacket]
  split
  · exact ⟨rfl, rfl, rfl⟩
  · rename_i d frames _
    have h : SamePackets q ((q.prepareDecode p).keepFrames d frames (p.isSome && !fec)) :=
      ⟨rfl, rfl, rfl⟩
    exact h.trans (recordBufferSize_same _)

theorem decodeLoss_state (op : Opus D S) (q : AudioQueue D S) (packet : QueuePacket) :
    ∃ q', SamePackets q q' ∧ ((q.decodeLoss op packet).state = q' ∨
      (q.decodeLoss op packet).state = { q' with
        packetBufferSamples := q'.packetBufferSamples + packet.samples
        packetBuffer := packet :: q'.packetBuffer }) := by
  have hr : SamePackets q (if packet.id = q.nextId then q.decodePacket op (some packet) true
      else q.decodePacket op none false).state := by
    split_ifs <;> exact decodePacket_same _ _ _ _
  dsimp only [decodeLoss]
  generalize (if packet.id = q.nextId then _ else _) = r at hr ⊢
  refine ⟨r.state, hr, ?_⟩
  split
  · exact .inl rfl
  · exact .inr rfl

end Decoding

end AudioQueue

end TsClient.Audio
