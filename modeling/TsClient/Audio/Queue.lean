import TsClient.Rust
import Mathlib.Data.List.InsertIdx
import Mathlib.Algebra.BigOperators.Group.List
import Mathlib.Algebra.Order.Ring.Nat

/-!
The jitter buffer of one talker (`AudioQueue` in `tsclientlib/src/audio.rs`): its state, the
Opus library it calls, and the operations that do not decode: `add_buffer_size`,
`get_min_queue_size`, `add_packet` and `AudioQueue::new`. Calls are modelled as the debug
build runs them (see `TsClient.Rust`). Sizes and times are counted in samples at 48 kHz. Sample
values are of any type `S`; the queue only moves them.
-/

namespace TsClient.Audio

def channelNum : Nat := 2

def lastBufferSizeCount : UInt16 := 256

def maxBufferSize : Nat := 48000 / 2

def maxBufferPackets : Nat := 50

def maxBufferTime : Nat := 48000 / 2

def speedChangeSteps : Nat := 100

/-- The part of an `InAudioBuf` the queue reads; `whisper` is whether it is an `S2CWhisper`. -/
structure InAudioBuf where
  id : UInt16
  payload : List UInt8
  whisper : Bool
  deriving DecidableEq, Repr

/-- `nb_samples`, `Decoder::new`, and `decode_float` into a slice of `cap` samples. -/
structure Opus (D S : Type) where
  nbSamples : List UInt8 → Except String Nat
  decoderNew : Except String D
  decodeFloat : D → Option (List UInt8) → Nat → Bool → Except String (D × List (S × S))

structure QueuePacket where
  packet : InAudioBuf
  samples : Nat
  id : UInt16
  deriving DecidableEq, Repr

/-- `lastBufferSamples` is the sliding-window minimum of `(insertion time, samples in buffer)`. -/
structure AudioQueue (D S : Type) where
  decoder : D
  nextId : UInt16
  whispering : Bool
  packetBuffer : List QueuePacket
  packetBufferSamples : Nat
  decodedBuffer : List S
  decodedPos : Nat
  lastPacketSamples : Nat
  packetLossNum : Nat
  bufferingSamples : Nat
  lastBufferSamples : List (UInt16 × Nat)
  curLastBufferSample : UInt16
  bufferedForSamples : Nat

variable {D S : Type}

namespace AudioQueue

def addBufferSize (q : AudioQueue D S) (size : Nat) : Except Failure (AudioQueue D S) :=
  let kept := (q.lastBufferSamples.reverse.dropWhile fun e => size ≤ e.2).reverse
  match addU16 q.curLastBufferSample 1 with
  | .error f => .error f
  | .ok cur => .ok { q with
      lastBufferSamples :=
        (kept ++ [(q.curLastBufferSample, size)]).dropWhile fun e => lastBufferSizeCount < cur - e.1
      curLastBufferSample := cur }

def getMinQueueSize (q : AudioQueue D S) : Nat :=
  q.lastPacketSamples + (q.lastBufferSamples.head?.map Prod.snd).getD 0

/-- Where `add_packet` inserts: after each packet, from the back, whose id is not greater. -/
def insertIndex (buffer : List QueuePacket) (id : UInt16) : Nat :=
  buffer.length - (buffer.reverse.takeWhile fun p => id < p.id).length

/-- `back().map(|p| p.id + 1).unwrap_or(id)` in `add_packet`. -/
def lastIdAfter (buffer : List QueuePacket) (id : UInt16) : Except Failure UInt16 :=
  match buffer.getLast? with
  | some p => addU16 p.id 1
  | none => .ok id

def bufferingAfter (buffering samples lastPacketSamples : Nat) (id lastId : UInt16) : Nat :=
  buffering - samples - (id - lastId).toNat * lastPacketSamples

def addPacket (op : Opus D S) (q : AudioQueue D S) (packet : InAudioBuf) :
    Except Failure (AudioQueue D S) :=
  if maxBufferPackets ≤ q.packetBuffer.length then .error (.err "Audio queue is full, dropping")
  else match op.nbSamples packet.payload with
  | .error e => .error (.err e)
  | .ok samples =>
    if maxBufferPackets < (packet.id - q.nextId).toNat then
      .error (.err "Audio packet is too late, dropping")
    else match lastIdAfter q.packetBuffer packet.id with
    | .error f => .error f
    | .ok lastId => .ok { q with
        bufferingSamples :=
          if lastId ≤ packet.id then
            bufferingAfter q.bufferingSamples samples q.lastPacketSamples packet.id lastId
          else q.bufferingSamples
        packetBufferSamples := q.packetBufferSamples + samples
        packetBuffer :=
          q.packetBuffer.insertIdx (insertIndex q.packetBuffer packet.id) ⟨packet, samples, packet.id⟩ }

def new (op : Opus D S) (packet : InAudioBuf) : Except Failure (AudioQueue D S) :=
  match op.nbSamples packet.payload, op.decoderNew with
  | .error e, _ => .error (.err e)
  | .ok _, .error e => .error (.err e)
  | .ok samples, .ok decoder =>
    let q : AudioQueue D S :=
      { decoder, nextId := packet.id, whispering := false, packetBuffer := [],
        packetBufferSamples := 0, decodedBuffer := [], decodedPos := 0,
        lastPacketSamples := samples * channelNum, packetLossNum := 0, bufferingSamples := 0,
        lastBufferSamples := [], curLastBufferSample := 0, bufferedForSamples := 0 }
    match q.addBufferSize 0 with
    | .error f => .error f
    | .ok q => q.addPacket op packet

/-- The queue `AudioQueue::new` makes from a first packet of `samples` samples per channel. -/
def started (decoder : D) (samples : Nat) (p : InAudioBuf) : AudioQueue D S :=
  { decoder, nextId := p.id, whispering := false, packetBuffer := [⟨p, samples, p.id⟩],
    packetBufferSamples := samples, decodedBuffer := [], decodedPos := 0,
    lastPacketSamples := samples * channelNum, packetLossNum := 0, bufferingSamples := 0,
    lastBufferSamples := [(0, 0)], curLastBufferSample := 1, bufferedForSamples := 0 }

theorem new_eq {op : Opus D S} {p : InAudioBuf} {samples : Nat} {d : D}
    (hs : op.nbSamples p.payload = .ok samples) (hd : op.decoderNew = .ok d) :
    AudioQueue.new op p = .ok (started d samples p) := by
  simp [AudioQueue.new, hs, hd, addBufferSize, addU16, addPacket, lastIdAfter, insertIndex,
    bufferingAfter, started, maxBufferPackets, lastBufferSizeCount]

theorem insertIndex_le (buffer : List QueuePacket) (id : UInt16) :
    insertIndex buffer id ≤ buffer.length :=
  Nat.sub_le _ _

theorem addBufferSize_eq {q q' : AudioQueue D S} {size : Nat} (h : q.addBufferSize size = .ok q') :
    ∃ l c, q' = { q with lastBufferSamples := l, curLastBufferSample := c } := by
  unfold addBufferSize at h
  split at h
  · cases h
  · exact ⟨_, _, (Except.ok.inj h).symm⟩

theorem addPacket_eq {op : Opus D S} {q q' : AudioQueue D S} {p : InAudioBuf}
    (h : q.addPacket op p = .ok q') :
    ∃ samples b, q.packetBuffer.length < maxBufferPackets ∧ op.nbSamples p.payload = .ok samples ∧
      q' = { q with
        bufferingSamples := b
        packetBufferSamples := q.packetBufferSamples + samples
        packetBuffer :=
          q.packetBuffer.insertIdx (insertIndex q.packetBuffer p.id) ⟨p, samples, p.id⟩ } := by
  unfold addPacket at h
  split at h
  · cases h
  split at h
  · cases h
  rename_i samples hs
  split at h
  · cases h
  split at h
  · cases h
  exact ⟨samples, _, by omega, hs, (Except.ok.inj h).symm⟩

end AudioQueue

/-- An Opus stand-in: `n` samples per channel, and a payload starting with `k` decodes to the
samples `2nk, …, 2nk + 2n - 1`; concealment writes silence. -/
def countingOpus (n : Nat) : Opus Nat Nat where
  nbSamples _ := .ok n
  decoderNew := .ok 0
  decodeFloat d data cap fec :=
    match data, fec with
    | some payload, false =>
      if 2 * n ≤ cap then
        .ok (d + 1, (List.range n).map fun i =>
          (2 * n * (payload.headD 0).toNat + 2 * i, 2 * n * (payload.headD 0).toNat + 2 * i + 1))
      else .error "buffer too small"
    | _, _ => .ok (d + 1, List.replicate (cap / 2) (0, 0))

theorem countingOpus_decodeFloat (n d : Nat) (k : UInt8) (rest : List UInt8) {cap : Nat}
    (h : 2 * n ≤ cap) : (countingOpus n).decodeFloat d (some (k :: rest)) cap false =
      .ok (d + 1, (List.range n).map fun i =>
        (2 * n * k.toNat + 2 * i, 2 * n * k.toNat + 2 * i + 1)) := by
  simp [countingOpus, h]

/-- Two queues hold the same packets: the same queue, sample count and `next_id`. -/
structure SamePackets (q q' : AudioQueue D S) : Prop where
  packetBuffer_eq : q'.packetBuffer = q.packetBuffer
  packetBufferSamples_eq : q'.packetBufferSamples = q.packetBufferSamples
  nextId_eq : q'.nextId = q.nextId

theorem SamePackets.trans {q₁ q₂ q₃ : AudioQueue D S} (h₁ : SamePackets q₁ q₂)
    (h₂ : SamePackets q₂ q₃) : SamePackets q₁ q₃ :=
  ⟨h₂.packetBuffer_eq.trans h₁.packetBuffer_eq,
    h₂.packetBufferSamples_eq.trans h₁.packetBufferSamples_eq, h₂.nextId_eq.trans h₁.nextId_eq⟩

end TsClient.Audio
