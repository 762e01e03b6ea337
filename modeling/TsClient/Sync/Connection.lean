import TsClient.Audio.Queue
import Mathlib.Data.List.Perm.Subperm

/-!
`SyncConnection` (`tsclientlib/src/sync.rs`): a connection driven as a stream, with a channel of
requests from its `SyncConnectionHandle`s. Every request carries the `oneshot` sender its answer
goes back on. `poll_next` first takes the requests ready on the channel: it answers at once when
the connection refuses the request or it is done already, and otherwise keeps the sender, under
the request's handle in `commands`, `downloads` or `uploads`, or in `connects` or `disconnects`.
It then polls the connection's own stream, answering and dropping the sender of each result it
gets, until an item that it passes on.

The connection is outside the model. What its calls return when `poll_next` takes a request
(`send_command`, `get_state`, `disconnect`, `download_file`, `upload_file`) comes with the
request, without the arguments it takes, and the values its stream is ready with are the input
of the second loop. A sender is an abstract value; the answers sent on senders are an output of
each step. `E` is the connection's error type, `D` and `U` the results of a file transfer.

Each step is described by what it does to the senders, up to order (`handleMessage_pending`,
`handleItem_pending`): a sender that waits or comes with a request is answered, still waits, or
was displaced by a `HashMap::insert` of a handle already in use.
-/

namespace TsClient.Sync

open Audio (InAudioBuf)

/-- A `HashMap` from handles to senders, as its list of entries with distinct keys. -/
structure SenderMap (K Tx : Type) where
  entries : List (K × Tx)
  keys_nodup : (entries.map (·.1)).Nodup

namespace SenderMap

variable {K Tx : Type}

def empty : SenderMap K Tx := ⟨[], List.nodup_nil⟩

def keys (m : SenderMap K Tx) : List K := m.entries.map (·.1)

def senders (m : SenderMap K Tx) : List Tx := m.entries.map (·.2)

variable [DecidableEq K]

theorem keys_filter_nodup (m : SenderMap K Tx) (k : K) :
    ((m.entries.filter (·.1 ≠ k)).map (·.1)).Nodup :=
  m.keys_nodup.sublist ((List.filter_sublist _).map _)

def remove (m : SenderMap K Tx) (k : K) : Option Tx × SenderMap K Tx :=
  (m.entries.lookup k, ⟨m.entries.filter (·.1 ≠ k), m.keys_filter_nodup k⟩)

/-- `HashMap::insert`: the old sender of `k`, and the map with `(k, tx)` put first. -/
def insert (m : SenderMap K Tx) (k : K) (tx : Tx) : Option Tx × SenderMap K Tx :=
  (m.entries.lookup k,
    ⟨(k, tx) :: m.entries.filter (·.1 ≠ k),
      List.nodup_cons.2 ⟨by simp, m.keys_filter_nodup k⟩⟩)

theorem remove_senders (m : SenderMap K Tx) (k : K) :
    ((m.remove k).2.senders ++ (m.remove k).1.toList).Perm m.senders := by
  cases hl : m.entries.lookup k with
  | none =>
    simp only [remove, senders, hl, filter_key_ne_of_not_mem (not_mem_of_lookup_eq_none hl),
      Option.toList, List.append_nil]
    exact List.Perm.refl _
  | some tx =>
    obtain ⟨l₁, l₂, hm, -⟩ := List.lookup_eq_some_iff.mp hl
    have hnd := m.keys_nodup
    rw [hm, List.map_append, List.map_cons, List.nodup_middle, List.nodup_cons,
      ← List.map_append] at hnd
    have h₁ : k ∉ l₁.map (·.1) := fun h => hnd.1 (by simp_all)
    have h₂ : k ∉ l₂.map (·.1) := fun h => hnd.1 (by simp_all)
    simp only [remove, hl, Option.toList]
    simp only [senders, hm, List.filter_append, List.filter_cons, ne_eq, not_true_eq_false,
      decide_False, filter_key_ne_of_not_mem h₁, filter_key_ne_of_not_mem h₂, List.map_append,
      List.map_cons, Bool.false_eq_true, if_false]
    exact List.perm_append_singleton _ _ |>.trans List.perm_middle.symm

theorem insert_senders (m : SenderMap K Tx) (k : K) (tx : Tx) :
    ((m.insert k tx).2.senders ++ (m.insert k tx).1.toList).Perm (tx :: m.senders) :=
  (m.remove_senders k).cons tx

theorem count_remove [DecidableEq Tx] (m : SenderMap K Tx) (k : K) (a : Tx) :
    (m.remove k).2.senders.count a + (m.remove k).1.toList.count a = m.senders.count a := by
  simpa only [List.count_append] using (m.remove_senders k).count_eq a

theorem count_insert [DecidableEq Tx] (m : SenderMap K Tx) (k : K) (tx a : Tx) :
    (m.insert k tx).2.senders.count a + (m.insert k tx).1.toList.count a =
      m.senders.count a + [tx].count a := by
  simpa only [List.count_append] using
    ((m.insert_senders k tx).trans (List.perm_append_singleton _ _).symm).count_eq a

end SenderMap

/-- A value sent back on a request's `oneshot` sender; a `with_connection` closure sends `ran`. -/
inductive Reply (E D U : Type)
  | ran
  | command (result : Except E Unit)
  | done (result : Except E Unit)
  | download (result : Except E D)
  | upload (result : Except E U)

/-- A request with its sender and what the connection's call for it returns when taken. -/
inductive SyncConMessage (Tx H F E : Type)
  | runFn (send : Tx)
  | sendCommand (send : Tx) (handle : Except E H)
  | waitConnected (send : Tx) (connected : Bool)
  | disconnect (send : Tx) (result : Except E Unit)
  | downloadFile (send : Tx) (handle : Except E F)
  | uploadFile (send : Tx) (handle : Except E F)

def SyncConMessage.sender {Tx H F E : Type} : SyncConMessage Tx H F E → Tx
  | .runFn send | .sendCommand send _ | .waitConnected send _ | .disconnect send _
  | .downloadFile send _ | .uploadFile send _ => send

/-- The crate root's `StreamItem` as `poll_next` matches it; `Ev` is `events::Event`. -/
inductive StreamItem (H F E D U Ev : Type)
  | conEvents (events : List Ev)
  | audio (packet : InAudioBuf)
  | identityLevelIncreasing (level : UInt8)
  | identityLevelIncreased
  | disconnectedTemporarily
  | messageResult (handle : H) (result : Except E Unit)
  | fileDownload (handle : F) (result : D)
  | fileUpload (handle : F) (result : U)
  | fileTransferFailed (handle : F) (error : E)

inductive SyncStreamItem (Ev : Type)
  | conEvents (events : List Ev)
  | audio (packet : InAudioBuf)
  | identityLevelIncreasing (level : UInt8)
  | identityLevelIncreased
  | disconnectedTemporarily

/-- The senders that `poll_next` keeps waiting for the connection. -/
structure SyncConnection (Tx H F E D U : Type) where
  commands : SenderMap H Tx
  connects : List Tx
  disconnects : List Tx
  downloads : SenderMap F Tx
  uploads : SenderMap F Tx

namespace SyncConnection

variable {Tx H F E D U Ev : Type}

def fromConnection : SyncConnection Tx H F E D U := ⟨.empty, [], [], .empty, .empty⟩

def pending (s : SyncConnection Tx H F E D U) : List Tx :=
  s.commands.senders ++ s.connects ++ s.disconnects ++ s.downloads.senders ++ s.uploads.senders

@[simp] theorem count_pending [DecidableEq Tx] (s : SyncConnection Tx H F E D U) (a : Tx) :
    s.pending.count a = s.commands.senders.count a + s.connects.count a +
      s.disconnects.count a + s.downloads.senders.count a + s.uploads.senders.count a := by
  simp only [pending, List.count_append]

variable [DecidableEq H] [DecidableEq F]

def handleMessage (s : SyncConnection Tx H F E D U) :
    SyncConMessage Tx H F E → SyncConnection Tx H F E D U × List (Tx × Reply E D U)
  | .runFn send => (s, [(send, .ran)])
  | .sendCommand send (.error e) => (s, [(send, .command (.error e))])
  | .sendCommand send (.ok handle) => ({ s with commands := (s.commands.insert handle send).2 }, [])
  | .waitConnected send connected =>
    if connected then (s, [(send, .done (.ok ()))])
    else ({ s with connects := s.connects ++ [send] }, [])
  | .disconnect send (.error e) => (s, [(send, .done (.error e))])
  | .disconnect send (.ok ()) => ({ s with disconnects := s.disconnects ++ [send] }, [])
  | .downloadFile send (.error e) => (s, [(send, .download (.error e))])
  | .downloadFile send (.ok handle) =>
    ({ s with downloads := (s.downloads.insert handle send).2 }, [])
  | .uploadFile send (.error e) => (s, [(send, .upload (.error e))])
  | .uploadFile send (.ok handle) => ({ s with uploads := (s.uploads.insert handle send).2 }, [])

def handleMessages (s : SyncConnection Tx H F E D U) :
    List (SyncConMessage Tx H F E) → SyncConnection Tx H F E D U × List (Tx × Reply E D U)
  | [] => (s, [])
  | msg :: msgs =>
    let r := s.handleMessage msg
    let rs := r.1.handleMessages msgs
    (rs.1, r.2 ++ rs.2)

/-- One value of the connection's stream; `none` last where `poll_next` polls it again. -/
def handleItem (s : SyncConnection Tx H F E D U) :
    Option (Except E (StreamItem H F E D U Ev)) →
      SyncConnection Tx H F E D U × List (Tx × Reply E D U) ×
        Option (Option (Except E (SyncStreamItem Ev)))
  | some (.ok (.conEvents i)) =>
    ({ s with connects := [] }, s.connects.map (·, .done (.ok ())),
      some (some (.ok (.conEvents i))))
  | some (.ok (.audio i)) => (s, [], some (some (.ok (.audio i))))
  | some (.ok (.identityLevelIncreasing i)) =>
    (s, [], some (some (.ok (.identityLevelIncreasing i))))
  | some (.ok .identityLevelIncreased) => (s, [], some (some (.ok .identityLevelIncreased)))
  | some (.ok .disconnectedTemporarily) => (s, [], some (some (.ok .disconnectedTemporarily)))
  | some (.ok (.messageResult handle res)) =>
    let r := s.commands.remove handle
    ({ s with commands := r.2 }, (r.1.map (·, .command res)).toList, none)
  | some (.ok (.fileDownload handle res)) =>
    let r := s.downloads.remove handle
    ({ s with downloads := r.2 }, (r.1.map (·, .download (.ok res))).toList, none)
  | some (.ok (.fileUpload handle res)) =>
    let r := s.uploads.remove handle
    ({ s with uploads := r.2 }, (r.1.map (·, .upload (.ok res))).toList, none)
  | some (.ok (.fileTransferFailed handle res)) =>
    let r := s.downloads.remove handle
    match r.1 with
    | some send => ({ s with downloads := r.2 }, [(send, .download (.error res))], none)
    | none =>
      let r' := s.uploads.remove handle
      ({ s with downloads := r.2, uploads := r'.2 }, (r'.1.map (·, .upload (.error res))).toList,
        none)
  | some (.error e) => (s, [], some (some (.error e)))
  | none => ({ s with disconnects := [] }, s.disconnects.map (·, .done (.ok ())), some none)

/-- The second loop of `poll_next`: `Poll::Pending` (`none`) when the values run out. -/
def pollItems (s : SyncConnection Tx H F E D U) :
    List (Option (Except E (StreamItem H F E D U Ev))) →
      SyncConnection Tx H F E D U × List (Tx × Reply E D U) ×
        Option (Option (Except E (SyncStreamItem Ev)))
  | [] => (s, [], none)
  | item :: items =>
    let r := s.handleItem item
    match r.2.2 with
    | some out => (r.1, r.2.1, some out)
    | none =>
      let rs := r.1.pollItems items
      (rs.1, r.2.1 ++ rs.2.1, rs.2.2)

def pollNext (s : SyncConnection Tx H F E D U) (msgs : List (SyncConMessage Tx H F E))
    (items : List (Option (Except E (StreamItem H F E D U Ev)))) :
    SyncConnection Tx H F E D U × List (Tx × Reply E D U) ×
      Option (Option (Except E (SyncStreamItem Ev))) :=
  let r := s.handleMessages msgs
  let rs := r.1.pollItems items
  (rs.1, r.2 ++ rs.2.1, rs.2.2)

/-- The old value of the `HashMap::insert` of a request's handle, dropped by `poll_next`. -/
def displaced (s : SyncConnection Tx H F E D U) : SyncConMessage Tx H F E → List Tx
  | .sendCommand send (.ok handle) => (s.commands.insert handle send).1.toList
  | .downloadFile send (.ok handle) => (s.downloads.insert handle send).1.toList
  | .uploadFile send (.ok handle) => (s.uploads.insert handle send).1.toList
  | _ => []

def displacedBy (s : SyncConnection Tx H F E D U) : List (SyncConMessage Tx H F E) → List Tx
  | [] => []
  | msg :: msgs => s.displaced msg ++ (s.handleMessage msg).1.displacedBy msgs

@[simp] theorem toList_map_pair {R : Type} (o : Option Tx) (r : R) :
    (o.map (·, r)).toList.map (·.1) = o.toList := by
  cases o <;> rfl

variable [DecidableEq Tx]

/-- A request's sender is answered, waits, or displaces a sender; the others wait still. -/
theorem handleMessage_pending (s : SyncConnection Tx H F E D U) (msg : SyncConMessage Tx H F E) :
    ((s.handleMessage msg).1.pending ++ (s.handleMessage msg).2.map (·.1) ++ s.displaced msg).Perm
      (s.pending ++ [msg.sender]) := by
  refine List.perm_iff_count.2 fun a => ?_
  match msg with
  | .sendCommand send (.ok handle) =>
    have := s.commands.count_insert handle send a
    simp [handleMessage, displaced, SyncConMessage.sender]
    omega
  | .downloadFile send (.ok handle) =>
    have := s.downloads.count_insert handle send a
    simp [handleMessage, displaced, SyncConMessage.sender]
    omega
  | .uploadFile send (.ok handle) =>
    have := s.uploads.count_insert handle send a
    simp [handleMessage, displaced, SyncConMessage.sender]
    omega
  | .runFn _ | .sendCommand _ (.error _) | .waitConnected _ true | .waitConnected _ false
  | .disconnect _ (.error _) | .disconnect _ (.ok ()) | .downloadFile _ (.error _)
  | .uploadFile _ (.error _) =>
    simp [handleMessage, displaced, SyncConMessage.sender] <;> omega

theorem handleItem_pending (s : SyncConnection Tx H F E D U)
    (item : Option (Except E (StreamItem H F E D U Ev))) :
    ((s.handleItem item).1.pending ++ (s.handleItem item).2.1.map (·.1)).Perm s.pending := by
  refine List.perm_iff_count.2 fun a => ?_
  match item with
  | some (.ok (.messageResult handle _)) =>
    have := s.commands.count_remove handle a
    simp [handleItem]
    omega
  | some (.ok (.fileDownload handle _)) =>
    have := s.downloads.count_remove handle a
    simp [handleItem]
    omega
  | some (.ok (.fileUpload handle _)) =>
    have := s.uploads.count_remove handle a
    simp [handleItem]
    omega
  | some (.ok (.fileTransferFailed handle _)) =>
    have hd := s.downloads.count_remove handle a
    have hu := s.uploads.count_remove handle a
    cases hr : (s.downloads.remove handle).1 <;> simp [handleItem, hr] at hd ⊢ <;> omega
  | some (.ok (.conEvents _)) | some (.ok (.audio _)) | some (.ok (.identityLevelIncreasing _))
  | some (.ok .identityLevelIncreased) | some (.ok .disconnectedTemporarily) | some (.error _)
  | none =>
    simp [handleItem, Function.comp_def] <;> omega

theorem pollItems_pending (s : SyncConnection Tx H F E D U)
    (items : List (Option (Except E (StreamItem H F E D U Ev)))) :
    ((s.pollItems items).1.pending ++ (s.pollItems items).2.1.map (·.1)).Perm s.pending := by
  induction items generalizing s with
  | nil => simp [pollItems]
  | cons item items ih =>
    have h := s.handleItem_pending item
    simp only [pollItems]
    split
    · exact h
    · refine List.perm_iff_count.2 fun a => ?_
      have := (ih (s.handleItem item).1).count_eq a
      have := h.count_eq a
      simp only [List.count_append, List.map_append] at *
      omega

theorem handleMessages_pending (s : SyncConnection Tx H F E D U)
    (msgs : List (SyncConMessage Tx H F E)) :
    ((s.handleMessages msgs).1.pending ++ (s.handleMessages msgs).2.map (·.1) ++
      s.displacedBy msgs).Perm (s.pending ++ msgs.map (·.sender)) := by
  induction msgs generalizing s with
  | nil => simp [handleMessages, displacedBy]
  | cons msg msgs ih =>
    refine List.perm_iff_count.2 fun a => ?_
    have := (ih (s.handleMessage msg).1).count_eq a
    have := (s.handleMessage_pending msg).count_eq a
    simp only [handleMessages, displacedBy, List.count_append, List.map_append, List.map_cons,
      List.count_cons, List.count_nil] at *
    omega

/-- Over one `poll_next`, each sender is answered, waits, or was displaced. -/
theorem pollNext_pending (s : SyncConnection Tx H F E D U) (msgs : List (SyncConMessage Tx H F E))
    (items : List (Option (Except E (StreamItem H F E D U Ev)))) :
    ((s.pollNext msgs items).1.pending ++ (s.pollNext msgs items).2.1.map (·.1) ++
      s.displacedBy msgs).Perm (s.pending ++ msgs.map (·.sender)) := by
  refine List.perm_iff_count.2 fun a => ?_
  have := ((s.handleMessages msgs).1.pollItems_pending items).count_eq a
  have := (s.handleMessages_pending msgs).count_eq a
  simp only [pollNext, List.count_append, List.map_append] at *
  omega

end SyncConnection

end TsClient.Sync
