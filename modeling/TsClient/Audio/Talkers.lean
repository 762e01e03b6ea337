import TsClient.Audio.Handler

/-!
Runs of the audio handler. Between two calls of `talkers_changed` the handler goes through
calls of `handle_packet` and `fill_buffer` (`Calls`); from `AudioHandler::new` it also goes
through `reset` and `talkers_changed` (`Reachable`). Every queue of a handler reached so is a
queue its talker's stream reaches, so `packet_buffer_samples` counts its packets' samples and it
holds at most `MAX_BUFFER_PACKETS` packets (`Reachable.queues_counted`). A call that adds or
removes a talker sets `talkers_changed`, so when `talkers_changed` returns `false` the talkers
are those of its previous call (`talkersChanged_false_unchanged`).
-/

namespace TsClient.Audio

namespace AudioHandler

variable {Id D S : Type} [DecidableEq Id] [Zero S]

/-- Every queue of the handler is one its talker's stream reaches. -/
def StreamQueues (op : Opus D S) (h : AudioHandler Id D S) : Prop :=
  ∀ e ∈ h.queues, Audio.Reachable op e.2

theorem StreamQueues.handlePacket {op : Opus D S} {h : AudioHandler Id D S}
    (hs : StreamQueues op h) (id : Id) (codec : CodecType) (packet : InAudioBuf) :
    StreamQueues op (h.handlePacket op id codec packet).state := by
  have step := handlePacket_step op h id codec packet
  generalize h.handlePacket op id codec packet = r at step ⊢
  cases step with
  | fail => exact hs
  | ignore => exact hs
  | remove => exact fun e he => hs e (mem_remove.1 he).1
  | addPacket _ hmem hadd =>
    intro e he
    rcases mem_update.1 he with ⟨he, -⟩ | ⟨rfl, -⟩
    · exact hs e he
    · exact .addPacket (hs _ hmem) hadd
  | new avg _ _ hnew =>
    intro e he
    rcases mem_insert.1 he with rfl | ⟨he, -⟩
    · exact .new avg hnew
    · exact hs e he

variable [Add S]

theorem StreamQueues.fillBuffer {op : Opus D S} {fuel : Nat} {h : AudioHandler Id D S}
    {buf : List S} {r} (hs : StreamQueues op h) (hr : h.fillBuffer op fuel buf = some r) :
    StreamQueues op r.state := by
  rcases r with ⟨h', _ | buf'⟩
  · rw [(fillBuffer_error hr rfl).1]
    exact hs
  · intro e' he'
    obtain ⟨e, he, -, -, frames, r, hg, hret⟩ := fillBuffer_ok_queues hr e' he'
    exact .getNextData (hs e he) hg hret

/-- Calls of `handle_packet` and `fill_buffer` that return, as between two `talkers_changed`. -/
inductive Calls (op : Opus D S) (h : AudioHandler Id D S) : AudioHandler Id D S → Prop
  | refl : Calls op h h
  | handlePacket {h' id codec packet} : Calls op h h' →
      Returns (h'.handlePacket op id codec packet).result →
      Calls op h (h'.handlePacket op id codec packet).state
  | fillBuffer {h' fuel buf r} : Calls op h h' → h'.fillBuffer op fuel buf = some r →
      Returns r.result → Calls op h r.state

theorem Calls.streamQueues {op : Opus D S} {h h' : AudioHandler Id D S} (hc : Calls op h h')
    (hs : StreamQueues op h) : StreamQueues op h' := by
  induction hc with
  | refl => exact hs
  | handlePacket _ _ ih => exact ih.handlePacket _ _ _
  | fillBuffer _ hr _ ih => exact ih.fillBuffer hr

theorem Calls.talkers {op : Opus D S} {h h' : AudioHandler Id D S} (hc : Calls op h h')
    (hf : h'.talkersChanged = false) : h'.talkers = h.talkers ∧ h.talkersChanged = false := by
  induction hc with
  | refl => exact ⟨rfl, hf⟩
  | handlePacket _ _ ih =>
    obtain ⟨h₁, h₂⟩ := handlePacket_talkers _ _ _ _ _ hf
    exact ⟨h₁.trans (ih h₂).1, (ih h₂).2⟩
  | fillBuffer _ hr _ ih =>
    obtain ⟨h₁, h₂⟩ := fillBuffer_talkers hr hf
    exact ⟨h₁.trans (ih h₂).1, (ih h₂).2⟩

/-- The handlers a program reaches from `AudioHandler::new` by calls that return. -/
inductive Reachable (op : Opus D S) : AudioHandler Id D S → Prop
  | new : Reachable op new
  | reset {h} : Reachable op h → Reachable op h.reset
  | talkersChanged {h} : Reachable op h → Reachable op h.talkersChanged'.1
  | calls {h h'} : Reachable op h → Calls op h h' → Reachable op h'

/-- In every reachable handler, each queue is one its talker's stream reaches. -/
theorem Reachable.queues_counted {op : Opus D S} {h : AudioHandler Id D S} (hr : Reachable op h) :
    ∀ e ∈ h.queues, Audio.Reachable op e.2 ∧ PacketsCounted e.2 := by
  suffices hs : StreamQueues op h from fun e he => ⟨hs e he, reachable_packetsCounted (hs e he)⟩
  induction hr with
  | new => exact fun e he => nomatch he
  | reset => exact fun e he => nomatch he
  | talkersChanged _ ih => exact fun e he => ih e (by simpa using he)
  | calls _ hc ih => exact hc.streamQueues ih

def oneTalker : AudioHandler Nat Nat Nat :=
  (new.handlePacket (countingOpus 960) 7 .opusVoice ⟨0, [0], false⟩).state

theorem oneTalker_queues_counted :
    Reachable (countingOpus 960) oneTalker ∧ ∀ e ∈ oneTalker.queues,
      Audio.Reachable (countingOpus 960) e.2 ∧ PacketsCounted e.2 :=
  have h : Reachable (countingOpus 960) oneTalker :=
    .calls .new (.handlePacket .refl fun _ h => nomatch h)
  ⟨h, Reachable.queues_counted h⟩

/-- When `talkers_changed` returns `false`, the talkers are those at its previous call. -/
theorem talkersChanged_false_unchanged {op : Opus D S} {h h' : AudioHandler Id D S}
    (hc : Calls op h.talkersChanged'.1 h') (hf : h'.talkersChanged'.2 = false) :
    h'.talkers = h.talkers := by
  rw [talkersChanged'_snd] at hf
  simpa [talkers] using (hc.talkers hf).1

def secondPacket : AudioHandler Nat Nat Nat :=
  (oneTalker.talkersChanged'.1.handlePacket (countingOpus 960) 7 .opusVoice ⟨1, [1], false⟩).state

theorem secondPacket_talkers_unchanged :
    Calls (countingOpus 960) oneTalker.talkersChanged'.1 secondPacket ∧
      secondPacket.talkersChanged'.2 = false ∧ secondPacket.talkers = oneTalker.talkers :=
  have hc : Calls (countingOpus 960) oneTalker.talkersChanged'.1 secondPacket :=
    .handlePacket .refl fun _ h => nomatch h
  have hf : secondPacket.talkersChanged'.2 = false := rfl
  ⟨hc, hf, talkersChanged_false_unchanged hc hf⟩

end AudioHandler

end TsClient.Audio
