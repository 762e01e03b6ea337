import TsClient.Sync.Connection
import Mathlib.Data.List.Nodup

/-!
Runs of a `SyncConnection`: `poll_next` called again and again, with whatever requests the
channel holds and whatever the connection's calls and stream return. The senders that wait and
those answered are, counted with multiplicity, among the senders that waited at the start or
came with a request, so no sender is answered twice or while it still waits
(`Run.answered_at_most_once`). When the connection never hands out a handle that a waiting
request still holds, they are exactly those senders: every request is answered or still waits
(`Run.no_request_lost`). A handle handed out again drops the request that held it for good
(`displaced_never_answered`).
-/

namespace TsClient.Sync

namespace SyncConnection

variable {Tx H F E D U : Type} [DecidableEq H] [DecidableEq F]

/-- Calls of `poll_next` from `s₀`: the senders of the requests taken, the answers sent, and the
state reached. `Admits s msgs` is what the run assumes of one call. -/
inductive Run (Admits : SyncConnection Tx H F E D U → List (SyncConMessage Tx H F E) → Prop)
    (s₀ : SyncConnection Tx H F E D U) :
    List Tx → List (Tx × Reply E D U) → SyncConnection Tx H F E D U → Prop
  | refl : Run Admits s₀ [] [] s₀
  | pollNext {Ev : Type} {sent log s} (msgs : List (SyncConMessage Tx H F E))
      (items : List (Option (Except E (StreamItem H F E D U Ev)))) :
      Run Admits s₀ sent log s → Admits s msgs →
      Run Admits s₀ (sent ++ msgs.map (·.sender)) (log ++ (s.pollNext msgs items).2.1)
        (s.pollNext msgs items).1

/-- No request of the call gets a handle that a waiting request still holds in the same map. -/
def FreshHandles (s : SyncConnection Tx H F E D U) (msgs : List (SyncConMessage Tx H F E)) :
    Prop :=
  s.displacedBy msgs = []

variable [DecidableEq Tx]
  {Admits : SyncConnection Tx H F E D U → List (SyncConMessage Tx H F E) → Prop}
  {s₀ s s' : SyncConnection Tx H F E D U} {sent : List Tx} {log : List (Tx × Reply E D U)}

theorem Run.subperm (hr : Run Admits s₀ sent log s) :
    (s.pending ++ log.map (·.1)).Subperm (s₀.pending ++ sent) := by
  induction hr with
  | refl => simp [List.Subperm.refl]
  | @pollNext _ _ _ s msgs items _ _ ih =>
    refine List.subperm_ext_iff.2 fun a _ => ?_
    have := ih.count_le a
    have := (s.pollNext_pending msgs items).count_eq a
    simp only [List.count_append, List.map_append] at *
    omega

/-- The senders that wait and those answered are, with multiplicity, among those that waited or
came with a request: distinct senders are answered at most once, and never while they wait. -/
theorem Run.answered_at_most_once (hr : Run Admits s₀ sent log s)
    (hnd : (s₀.pending ++ sent).Nodup) :
    (s.pending ++ log.map (·.1)).Subperm (s₀.pending ++ sent) ∧
      (s.pending ++ log.map (·.1)).Nodup :=
  ⟨hr.subperm, List.nodup_iff_count_le_one.2 fun a =>
    (hr.subperm.count_le a).trans (List.nodup_iff_count_le_one.1 hnd a)⟩

def idle : SyncConnection Nat Nat Nat String Unit Unit := fromConnection

def waitAndCommand : List (SyncConMessage Nat Nat Nat String) :=
  [.waitConnected 0 false, .sendCommand 1 (.ok 5)]

def resultAndEvents : List (Option (Except String (StreamItem Nat Nat String Unit Unit Nat))) :=
  [some (.ok (.messageResult 5 (.ok ()))), some (.ok (.conEvents []))]

def waitedAndCommanded := idle.pollNext waitAndCommand resultAndEvents

theorem waitAndCommand_answered_once :
    Run (fun _ _ => True) idle [0, 1] waitedAndCommanded.2.1 waitedAndCommanded.1 ∧
      (idle.pending ++ [0, 1]).Nodup ∧
      (waitedAndCommanded.1.pending ++ waitedAndCommanded.2.1.map (·.1)).Subperm
        (idle.pending ++ [0, 1]) ∧
      (waitedAndCommanded.1.pending ++ waitedAndCommanded.2.1.map (·.1)).Nodup :=
  have hr : Run (fun _ _ => True) idle [0, 1] waitedAndCommanded.2.1 waitedAndCommanded.1 :=
    .pollNext waitAndCommand resultAndEvents .refl trivial
  have hnd : (idle.pending ++ [0, 1]).Nodup := by decide
  ⟨hr, hnd, Run.answered_at_most_once hr hnd⟩

/-- With fresh handles, the senders that wait and those answered are exactly those that waited
or came with a request. -/
theorem Run.no_request_lost (hr : Run FreshHandles s₀ sent log s) :
    (s.pending ++ log.map (·.1)).Perm (s₀.pending ++ sent) := by
  induction hr with
  | refl => simp
  | @pollNext _ _ _ s msgs items _ hfresh ih =>
    refine List.perm_iff_count.2 fun a => ?_
    have := ih.count_eq a
    have := (s.pollNext_pending msgs items).count_eq a
    simp only [FreshHandles] at hfresh
    simp only [hfresh, List.count_append, List.count_nil, List.map_append] at *
    omega

theorem waitAndCommand_no_request_lost :
    Run FreshHandles idle [0, 1] waitedAndCommanded.2.1 waitedAndCommanded.1 ∧
      (waitedAndCommanded.1.pending ++ waitedAndCommanded.2.1.map (·.1)).Perm
        (idle.pending ++ [0, 1]) :=
  have hr : Run FreshHandles idle [0, 1] waitedAndCommanded.2.1 waitedAndCommanded.1 :=
    .pollNext waitAndCommand resultAndEvents .refl rfl
  ⟨hr, Run.no_request_lost hr⟩

/-- A sender displaced by a reused handle waits no more and is never answered, unless it comes
with a request again. -/
theorem displaced_never_answered {msg : SyncConMessage Tx H F E} {tx : Tx}
    (hd : tx ∈ s.displaced msg) (hnd : (s.pending ++ [msg.sender]).Nodup)
    (hr : Run Admits (s.handleMessage msg).1 sent log s') (hsent : tx ∉ sent) :
    tx ∉ (s.handleMessage msg).2.map (·.1) ++ log.map (·.1) ∧ tx ∉ s'.pending := by
  have h₁ := (s.handleMessage_pending msg).count_eq tx
  have h₂ := hr.subperm.count_le tx
  have h₃ := List.nodup_iff_count_le_one.1 hnd tx
  have h₄ := List.count_pos_iff.2 hd
  have h₅ := List.count_eq_zero.2 hsent
  simp only [List.count_append] at h₁ h₂ h₃
  rw [← List.count_eq_zero, ← List.count_eq_zero, List.count_append]
  omega

def commandFive : SyncConnection Nat Nat Nat String Unit Unit :=
  (idle.handleMessage (.sendCommand 0 (.ok 5))).1

def handleFiveReused := commandFive.handleMessage (.sendCommand 1 (.ok 5))

def resultOfFive : List (Option (Except String (StreamItem Nat Nat String Unit Unit Nat))) :=
  [some (.ok (.messageResult 5 (.ok ())))]

def resultFive := handleFiveReused.1.pollNext [] resultOfFive

theorem commandFive_never_answered :
    0 ∈ commandFive.displaced (.sendCommand 1 (.ok 5)) ∧ (commandFive.pending ++ [1]).Nodup ∧
      Run (fun _ _ => True) handleFiveReused.1 [] resultFive.2.1 resultFive.1 ∧
      resultFive.2.1.map (·.1) = [1] ∧
      0 ∉ handleFiveReused.2.map (·.1) ++ resultFive.2.1.map (·.1) ∧ 0 ∉ resultFive.1.pending :=
  have hd : 0 ∈ commandFive.displaced (.sendCommand 1 (.ok 5)) := by decide
  have hnd : (commandFive.pending ++ [1]).Nodup := by decide
  have hr : Run (fun _ _ => True) handleFiveReused.1 [] resultFive.2.1 resultFive.1 :=
    .pollNext [] resultOfFive .refl trivial
  ⟨hd, hnd, hr, rfl, displaced_never_answered hd hnd hr (List.not_mem_nil 0)⟩

end SyncConnection

end TsClient.Sync
