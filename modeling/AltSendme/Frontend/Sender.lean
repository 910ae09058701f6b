import AltSendme.Execution.Run
import AltSendme.Frontend.Transfer

/-! The sender's view (`useSender.ts` over `sender-store.ts`). A handler runs
until it awaits something; what is left of it then waits in `pending` and goes
on at any later time, as do its timers. The values a click handler closed over
are those of the last render, which precedes the next event. -/
namespace AltSendme.Frontend
open Execution

inductive SenderViewState where
  | idle
  | sharing
  | transporting
  | success
  deriving DecidableEq, Repr

structure SenderStore where
  viewState : SenderViewState
  ticket : Option String
  selectedPaths : List String
  selectedPath : Option String
  pathType : Option PathType
  thumbnailUrl : Option String
  transferMetadata : Option TransferMetadata
  transferProgress : Option TransferProgress
  isLoading : Bool
  isBroadcastMode : Bool
  activeConnectionCount : Nat
  alertDialog : AlertDialog
  deriving DecidableEq, Repr

namespace SenderStore

def initial : SenderStore :=
  ⟨.idle, none, [], none, none, none, none, none, false, false, 0, ⟨false, "", ""⟩⟩

def setSelectedPaths (s : SenderStore) (selectedPaths : List String) : SenderStore :=
  { s with selectedPaths := selectedPaths, selectedPath := selectedPaths.head? }

def addSelectedPaths (s : SenderStore) (paths : List String) : SenderStore :=
  s.setSelectedPaths (paths.foldl (fun acc path => if acc.contains path then acc else acc ++ [path])
    s.selectedPaths)

def removeSelectedPath (s : SenderStore) (path : String) : SenderStore :=
  let selectedPaths := s.selectedPaths.filter (· ≠ path)
  { s.setSelectedPaths selectedPaths with
    pathType := if selectedPaths.isEmpty then none else s.pathType }

def showAlert (s : SenderStore) (title description : String) : SenderStore :=
  { s with alertDialog := ⟨true, title, description⟩ }

def resetToIdle (s : SenderStore) : SenderStore :=
  { s with
    viewState := .idle
    ticket := none
    selectedPaths := []
    selectedPath := none
    pathType := none
    thumbnailUrl := none
    transferMetadata := none
    transferProgress := none
    isLoading := false
    isBroadcastMode := false
    activeConnectionCount := 0 }

def resetForBroadcast (s : SenderStore) : SenderStore :=
  { s with
    viewState := .sharing
    transferMetadata := none
    transferProgress := none
    thumbnailUrl := none
    activeConnectionCount := 0 }

end SenderStore

/-- What is left of a handler that awaits, or a timer that is set. -/
inductive SenderPending where
  /-- `startSharing` awaits `send_items`. -/
  | sendItems
  /-- `stopSharing` awaits `stop_sharing`. -/
  | stopSharing (wasActiveTransfer : Bool) (currentSelectedPath : Option String)
  /-- The completed handler sleeps for 10 ms, with the store as it found it. -/
  | completed (storeState : SenderStore)
  /-- The completed handler awaits the exact size. -/
  | fileSize (metadata : TransferMetadata)
  /-- The two-second timer of a completed broadcast. -/
  | broadcastReset
  /-- `check_path_type` of a selected path. -/
  | pathType
  deriving DecidableEq, Repr

/-- `progressUpdateIntervalRef` is the view state the interval's ticks ask for.
`wasReset` remembers that `resetToIdle` ran after the last `startSharing`; no
handler reads it. -/
structure SenderState where
  store : SenderStore
  latestProgressRef : Option TransferProgress
  transferStartTimeRef : Option Nat
  progressUpdateIntervalRef : Option SenderViewState
  wasManuallyStoppedRef : Bool
  selectedPathRef : Option String
  pathTypeRef : Option PathType
  pending : List SenderPending
  wasReset : Bool
  deriving DecidableEq, Repr

/-- What an awaited call answers. -/
inductive SenderReply where
  | done
  | ticket (ticket : String)
  | size (bytes : Nat)
  | type (type : PathType)
  | failed (error : String)
  deriving DecidableEq, Repr

/-- User actions, backend events, the effects after a render, and what goes on
by itself. `now` is what `Date.now` says there. -/
inductive SenderStep where
  | startSharing
  | stopSharing (now : Nat)
  | setBroadcast (enabled : Bool)
  | filesSelect (paths : List String) (providedPathType : Option PathType)
  | clearSelectedPath
  | removeSelectedPath (path : String)
  | activeConnectionCount (count : Nat)
  | transferStarted (now : Nat)
  | transferProgress (progress : TransferProgress)
  | transferCompleted
  | transferFailed (now : Nat)
  | rendered
  | intervalTick
  | resume (pending : Nat) (now : Nat) (reply : SenderReply)
  deriving DecidableEq, Repr

/-- `path.split('/').pop() || 'Unknown'` -/
def baseName (path : String) : String :=
  let last := (segments path).getLastD ""
  if last = "" then "Unknown" else last

namespace SenderState

def initial : SenderState := ⟨.initial, none, none, none, false, none, none, [], false⟩

def mapStore (s : SenderState) (change : SenderStore → SenderStore) : SenderState :=
  { s with store := change s.store }

def await (s : SenderState) (p : SenderPending) : SenderState := { s with pending := s.pending ++ [p] }

def clearInterval (s : SenderState) : SenderState := { s with progressUpdateIntervalRef := none }

def clearTransferRefs (s : SenderState) : SenderState :=
  { s with transferStartTimeRef := none, latestProgressRef := none }

def resetToIdle (s : SenderState) : SenderState :=
  { s.mapStore SenderStore.resetToIdle with wasReset := true }

def startSharing (s : SenderState) : SenderState :=
  if s.store.selectedPaths.isEmpty then s
  else
    { s.clearTransferRefs with
      store := { s.store with
        viewState := .idle
        transferMetadata := none
        transferProgress := none
        activeConnectionCount := 0
        isLoading := true }
      wasManuallyStoppedRef := false
      wasReset := false }.await .sendItems

/-- The broadcast branch of the source is not here: `setIsBroadcastMode(false)`
has just run, and the branch asks the store. -/
def stopSharing (s : SenderState) (now : Nat) : SenderState :=
  let stopped := (s.store.transferMetadata.map (·.wasStopped)).getD false
  let wasActiveTransfer := s.store.viewState = .transporting ∧ !stopped
  let isCompletedTransfer := s.store.viewState = .success ∧ s.store.transferMetadata.isSome
  let s := s.mapStore fun store => { store with isBroadcastMode := false }
  let currentSelectedPath := s.selectedPathRef
  let currentTransferStartTime := s.transferStartTimeRef
  let s :=
    if wasActiveTransfer ∧ truthy currentSelectedPath then
      { s.clearInterval.clearTransferRefs with
        wasManuallyStoppedRef := true
        store := { s.store with
          viewState := .success
          transferMetadata := some
            { fileName := baseName (currentSelectedPath.getD "")
              fileSize := 0
              duration := 0
              startTime := currentTransferStartTime.getD now
              endTime := now
              downloadPath := none
              wasStopped := true
              pathType := s.pathTypeRef
              itemCount := some s.store.selectedPaths.length } } }
    else s
  if isCompletedTransfer then
    { s.resetToIdle.clearTransferRefs with wasManuallyStoppedRef := false }
  else s.await (.stopSharing wasActiveTransfer currentSelectedPath)

def filesSelect (s : SenderState) (paths : List String) (providedPathType : Option PathType) :
    SenderState :=
  if paths.isEmpty then s
  else
    let s := s.mapStore (·.addSelectedPaths paths)
    if s.store.selectedPaths.length > 1 then s.mapStore fun store => { store with pathType := none }
    else if providedPathType.isSome then
      s.mapStore fun store => { store with pathType := providedPathType }
    else if s.pathTypeRef.isSome then s
    else s.await .pathType

def removeSelectedPath (s : SenderState) (path : String) : SenderState :=
  let s := s.mapStore (·.removeSelectedPath path)
  if s.store.selectedPaths.length = 1 then s.await .pathType
  else s.mapStore fun store => { store with pathType := none }

def transferStarted (s : SenderState) (now : Nat) : SenderState :=
  let watched := if s.store.isBroadcastMode then .sharing else .transporting
  { s with
    transferStartTimeRef := some now
    latestProgressRef := none
    wasManuallyStoppedRef := false
    progressUpdateIntervalRef := some watched
    store := { s.store with
      viewState := if s.store.isBroadcastMode then s.store.viewState else .transporting
      transferProgress := none
      transferMetadata := none } }

def transferProgress (s : SenderState) (progress : TransferProgress) : SenderState :=
  if s.store.viewState = .transporting ∨ s.store.isBroadcastMode ∧ s.store.viewState = .sharing then
    { s with latestProgressRef := some progress }
  else s

/-- The guards that the completed and the failed handler share. -/
def acceptsEnd (s : SenderState) : Bool :=
  !s.wasManuallyStoppedRef && s.store.viewState != .idle && truthy s.store.selectedPath &&
    (s.store.isBroadcastMode || s.store.viewState == .transporting)

def transferCompleted (s : SenderState) : SenderState :=
  if s.acceptsEnd then
    let progress := s.latestProgressRef.or s.store.transferProgress
    (s.clearInterval.mapStore fun store => { store with transferProgress := progress }).await
      (.completed s.store)
  else s

def transferFailed (s : SenderState) (now : Nat) : SenderState :=
  if s.acceptsEnd then
    let path := (s.store.selectedPath.or s.selectedPathRef).getD ""
    if s.store.isBroadcastMode then
      (s.clearInterval.mapStore SenderStore.resetForBroadcast).clearTransferRefs
    else
      s.clearInterval.mapStore fun store => { store with
        viewState := .success
        transferProgress := none
        transferMetadata := some
          { fileName := baseName path
            fileSize := 0
            duration := (s.transferStartTimeRef.map (now - ·)).getD 0
            startTime := s.transferStartTimeRef.getD now
            endTime := now
            downloadPath := none
            wasStopped := true
            pathType := store.pathType.or s.pathTypeRef
            itemCount := some store.selectedPaths.length } }
  else s

/-- The completed handler after its sleep. `storeState` passed the guards, so
it has a path. -/
def finishCompleted (s : SenderState) (storeState : SenderStore) (now : Nat) : SenderState :=
  let metadata : TransferMetadata :=
    { fileName := baseName ((storeState.selectedPath.or s.selectedPathRef).getD "")
      fileSize := (s.latestProgressRef.map (·.totalBytes)).getD 0
      duration := (s.transferStartTimeRef.map (now - ·)).getD 0
      startTime := s.transferStartTimeRef.getD now
      endTime := now
      downloadPath := none
      wasStopped := false
      pathType := storeState.pathType.or s.pathTypeRef
      itemCount := some storeState.selectedPaths.length }
  let s := s.mapStore fun store => { store with transferMetadata := some metadata }
  let s :=
    if storeState.isBroadcastMode then s.await .broadcastReset
    else s.mapStore fun store => { store with viewState := .success, transferProgress := none }
  if storeState.selectedPaths.length ≤ 1 then s.await (.fileSize metadata) else s

/-- `stopSharing` after `stop_sharing` returned. -/
def finishStop (s : SenderState) (wasActiveTransfer : Bool) (currentSelectedPath : Option String) :
    SenderState :=
  if !wasActiveTransfer || !truthy currentSelectedPath then
    { s.resetToIdle.clearTransferRefs with wasManuallyStoppedRef := false }
  else
    (s.mapStore fun store =>
      { store.setSelectedPaths [] with
        ticket := none, pathType := none, transferProgress := none }).clearTransferRefs

/-- What a continuation does with its reply; a reply of another kind never comes. -/
def continueWith (s : SenderState) (now : Nat) : SenderPending → SenderReply → Option SenderState
  | .sendItems, .ticket ticket =>
      some (s.mapStore fun store =>
        { store with ticket := some ticket, viewState := .sharing, isLoading := false })
  | .sendItems, .failed error =>
      -- a `WebPreviewError` is shown by its own message instead; that text is not modelled
      some (s.mapStore fun store =>
        { store.showAlert "common:errors.sharingFailed"
            ("common:errors.sharingFailedDesc" ++ ": " ++ error) with isLoading := false })
  | .stopSharing wasActiveTransfer currentSelectedPath, .done =>
      some (s.finishStop wasActiveTransfer currentSelectedPath)
  | .stopSharing _ _, .failed error =>
      some (s.mapStore fun store => store.showAlert "common:errors.stopSharingFailed"
        ("common:errors.stopSharingFailedDesc" ++ ": " ++ error))
  | .completed storeState, .done => some (s.finishCompleted storeState now)
  | .fileSize metadata, .size bytes =>
      some (s.mapStore fun store =>
        { store with transferMetadata := some { metadata with
            fileSize := bytes, startTime := s.transferStartTimeRef.getD metadata.endTime } })
  | .fileSize _, .failed _ => some s
  | .broadcastReset, .done => some (s.mapStore SenderStore.resetForBroadcast).clearTransferRefs
  | .pathType, .type type => some (s.mapStore fun store => { store with pathType := some type })
  | .pathType, .failed _ => some (s.mapStore fun store => { store with pathType := none })
  | _, _ => none

def next (s : SenderState) : SenderStep → Option SenderState
  | .startSharing => some s.startSharing
  | .stopSharing now => some (s.stopSharing now)
  | .setBroadcast enabled => some (s.mapStore fun store => { store with isBroadcastMode := enabled })
  | .filesSelect paths providedPathType => some (s.filesSelect paths providedPathType)
  | .clearSelectedPath =>
      some (s.mapStore fun store => { store.setSelectedPaths [] with pathType := none })
  | .removeSelectedPath path => some (s.removeSelectedPath path)
  | .activeConnectionCount count =>
      some (s.mapStore fun store => { store with activeConnectionCount := count })
  | .transferStarted now => some (s.transferStarted now)
  | .transferProgress progress => some (s.transferProgress progress)
  | .transferCompleted => some s.transferCompleted
  | .transferFailed now => some (s.transferFailed now)
  | .rendered =>
      some { s with selectedPathRef := s.store.selectedPath, pathTypeRef := s.store.pathType }
  | .intervalTick =>
      if s.progressUpdateIntervalRef = some s.store.viewState ∧ s.latestProgressRef.isSome then
        some (s.mapStore fun store => { store with transferProgress := s.latestProgressRef })
      else some s
  | .resume k now reply => do
      let p ← s.pending[k]?
      { s with pending := s.pending.eraseIdx k }.continueWith now p reply

/-- The view shows a share only while there is a ticket, and stays idle from a
reset to the next start. -/
structure MatchesShare (s : SenderState) : Prop where
  ticket : s.store.viewState = .sharing ∨ s.store.viewState = .transporting → s.store.ticket ≠ none
  reset : s.wasReset = true → s.store.viewState = .idle ∧ s.store.ticket = none

/-- What is left of a handler may go on: no reset came after it, there is still
a ticket to show, or no view that needs the one it takes away. -/
def ContinuationKeeps (s : SenderState) : SenderPending → SenderReply → Prop
  | .sendItems, .ticket _ => s.wasReset = false
  | .completed storeState, .done => storeState.isBroadcastMode = false → s.wasReset = false
  | .stopSharing true currentSelectedPath, .done =>
      truthy currentSelectedPath = true →
        s.store.viewState ≠ .sharing ∧ s.store.viewState ≠ .transporting
  | .broadcastReset, .done => s.store.ticket ≠ none
  | _, _ => True

/-- The steps that would put a share into the view, or take the ticket from
under it, are taken only where they belong. -/
def KeepsShare (s : SenderState) : SenderStep → Prop
  | .transferStarted _ => s.store.isBroadcastMode = false → s.store.ticket ≠ none
  | .transferFailed _ =>
      s.acceptsEnd = true → s.store.isBroadcastMode = true → s.store.ticket ≠ none
  | .resume k _ reply => ∀ p ∈ s.pending[k]?, s.ContinuationKeeps p reply
  | _ => True

instance (s : SenderState) (p : SenderPending) (reply : SenderReply) :
    Decidable (s.ContinuationKeeps p reply) := by
  unfold ContinuationKeeps
  split <;> infer_instance

instance (s : SenderState) (step : SenderStep) : Decidable (s.KeepsShare step) := by
  unfold KeepsShare
  split
  · infer_instance
  · infer_instance
  · exact @Option.decidableForallMem _ _ (fun _ => inferInstance) _
  · infer_instance

/-- The view, the ticket and whether a reset was the last word are as before. -/
def SameView (s t : SenderState) : Prop :=
  t.store.viewState = s.store.viewState ∧ t.store.ticket = s.store.ticket ∧ t.wasReset = s.wasReset

/-- A step that keeps view, ticket and share keeps the match. -/
theorem MatchesShare.of_sameView {s t : SenderState} (hs : s.MatchesShare) (h : SameView s t) :
    t.MatchesShare := by
  obtain ⟨hView, hTicket, hReset⟩ := h
  refine ⟨?_, ?_⟩
  · rw [hView, hTicket]
    exact hs.ticket
  · rw [hView, hTicket, hReset]
    exact hs.reset

/-- A state that shows a share matches exactly when there is one and nothing was reset. -/
theorem matchesShare_of_shown {s : SenderState}
    (h : s.store.viewState = .sharing ∨ s.store.viewState = .transporting) :
    s.MatchesShare ↔ s.store.ticket ≠ none ∧ s.wasReset = false := by
  constructor
  · intro hs
    refine ⟨hs.ticket h, ?_⟩
    cases hReset : s.wasReset with
    | false => rfl
    | true =>
        have hIdle := (hs.reset hReset).1
        rw [hIdle] at h
        rcases h with h | h <;> cases h
  · rintro ⟨hTicket, hReset⟩
    exact ⟨fun _ => hTicket, fun hTrue => by rw [hReset] at hTrue; cases hTrue⟩

/-- On the success screen the view matches unless the share was reset. -/
theorem matchesShare_of_success {s : SenderState} (h : s.store.viewState = .success) :
    s.MatchesShare ↔ s.wasReset = false := by
  constructor
  · intro hs
    cases hReset : s.wasReset with
    | false => rfl
    | true =>
        have hIdle := (hs.reset hReset).1
        rw [h] at hIdle
        cases hIdle
  · intro hReset
    refine ⟨?_, fun hTrue => by rw [hReset] at hTrue; cases hTrue⟩
    rw [h]
    rintro (hView | hView) <;> cases hView

/-- An idle view without a ticket matches every share. -/
theorem matchesShare_of_reset {s : SenderState} (hView : s.store.viewState = .idle)
    (hTicket : s.store.ticket = none) : s.MatchesShare := by
  refine ⟨?_, fun _ => ⟨hView, hTicket⟩⟩
  rw [hView]
  rintro (h | h) <;> cases h

theorem MatchesShare.wasReset_eq_false {s : SenderState} (hs : s.MatchesShare)
    (h : s.store.viewState ≠ .idle ∨ s.store.ticket ≠ none) : s.wasReset = false := by
  cases hReset : s.wasReset with
  | false => rfl
  | true =>
      obtain ⟨hIdle, hNone⟩ := hs.reset hReset
      exact absurd h (by simp [hIdle, hNone])

section
variable {s t : SenderState}

/-- Starting to share keeps the match. -/
theorem startSharing_matchesShare (hs : s.MatchesShare) : s.startSharing.MatchesShare := by
  unfold startSharing
  split
  · exact hs
  · refine ⟨?_, nofun⟩
    rintro (h | h) <;> cases h

/-- Selecting files keeps view, ticket and share. -/
theorem filesSelect_sameView (paths : List String) (providedPathType : Option PathType) :
    SameView s (s.filesSelect paths providedPathType) := by
  unfold filesSelect
  dsimp only
  split
  · exact ⟨rfl, rfl, rfl⟩
  · split
    · exact ⟨rfl, rfl, rfl⟩
    · split
      · exact ⟨rfl, rfl, rfl⟩
      · split <;> exact ⟨rfl, rfl, rfl⟩

/-- Removing a path keeps view, ticket and share. -/
theorem removeSelectedPath_sameView (path : String) : SameView s (s.removeSelectedPath path) := by
  unfold removeSelectedPath
  dsimp only
  split <;> exact ⟨rfl, rfl, rfl⟩

/-- Stopping the share keeps the match. -/
theorem stopSharing_matchesShare (hs : s.MatchesShare) (now : Nat) :
    (s.stopSharing now).MatchesShare := by
  unfold stopSharing
  dsimp only
  split
  · exact matchesShare_of_reset rfl rfl
  · split
    · next hActive =>
        have hLive := hs.wasReset_eq_false (Or.inl (by rw [hActive.1.1]; nofun))
        exact (matchesShare_of_success rfl).mpr hLive
    · exact hs.of_sameView ⟨rfl, rfl, rfl⟩

/-- A transfer that starts keeps the match exactly if there is a ticket or broadcast is on.
-/
theorem transferStarted_matchesShare (hs : s.MatchesShare) (now : Nat) :
    (s.store.isBroadcastMode = false → s.store.ticket ≠ none) ↔
      (s.transferStarted now).MatchesShare := by
  cases hMode : s.store.isBroadcastMode with
  | true =>
      have hSame : SameView s (s.transferStarted now) :=
        ⟨by simp [transferStarted, hMode], rfl, rfl⟩
      exact ⟨fun _ => hs.of_sameView hSame, fun _ h => nomatch h⟩
  | false =>
      have hShown : (s.transferStarted now).store.viewState = .transporting := by
        simp [transferStarted, hMode]
      have hTicket : (s.transferStarted now).store.ticket = s.store.ticket := rfl
      have hReset : (s.transferStarted now).wasReset = s.wasReset := rfl
      rw [matchesShare_of_shown (Or.inr hShown), hTicket, hReset]
      exact ⟨fun h => ⟨h rfl, hs.wasReset_eq_false (Or.inr (h rfl))⟩, fun h _ => h.1⟩

/-- A reset for broadcast keeps the match exactly if there is a ticket. -/
theorem resetForBroadcast_matchesShare (hs : s.MatchesShare) {t : SenderState}
    (hStore : t.store = s.store.resetForBroadcast) (hReset : t.wasReset = s.wasReset) :
    s.store.ticket ≠ none ↔ t.MatchesShare := by
  rw [matchesShare_of_shown (Or.inl (by rw [hStore]; rfl)), hStore, hReset]
  exact ⟨fun h => ⟨h, hs.wasReset_eq_false (Or.inr h)⟩, fun h => h.1⟩

/-- A transfer that fails keeps the match exactly if a broadcast still has its ticket. -/
theorem transferFailed_matchesShare (hs : s.MatchesShare) (now : Nat) :
    (s.acceptsEnd = true → s.store.isBroadcastMode = true → s.store.ticket ≠ none) ↔
      (s.transferFailed now).MatchesShare := by
  unfold transferFailed
  split
  · next hAccepts =>
      dsimp only
      split
      · next hMode =>
          have hShown := @resetForBroadcast_matchesShare s hs
            (s.clearInterval.mapStore SenderStore.resetForBroadcast).clearTransferRefs rfl rfl
          exact ⟨fun h => hShown.mp (h hAccepts hMode), fun h _ _ => hShown.mpr h⟩
      · next hMode =>
          have hView : s.store.viewState ≠ .idle := by
            simp only [acceptsEnd, Bool.and_eq_true, bne_iff_ne] at hAccepts
            exact hAccepts.1.1.2
          refine ⟨fun _ => ?_, fun _ _ hTrue => absurd hTrue hMode⟩
          exact (matchesShare_of_success rfl).mpr (hs.wasReset_eq_false (Or.inl hView))
  · next hAccepts => exact ⟨fun _ => hs, fun _ h => absurd h hAccepts⟩

/-- The end of a transfer keeps the match exactly if broadcast is on or the share was not
reset under it. -/
theorem finishCompleted_matchesShare (hs : s.MatchesShare) (storeState : SenderStore) (now : Nat) :
    (storeState.isBroadcastMode = false → s.wasReset = false) ↔
      (s.finishCompleted storeState now).MatchesShare := by
  unfold finishCompleted
  dsimp only
  cases hMode : storeState.isBroadcastMode with
  | true =>
      refine ⟨fun _ => hs.of_sameView ?_, fun _ h => nomatch h⟩
      simp only [if_true]
      split <;> exact ⟨rfl, rfl, rfl⟩
  | false =>
      simp only [Bool.false_eq_true, if_false]
      rw [matchesShare_of_success (by split <;> rfl)]
      split <;> exact ⟨fun h => h trivial, fun h _ => h⟩

theorem finishStop_matchesShare (hs : s.MatchesShare) (wasActiveTransfer : Bool)
    (currentSelectedPath : Option String) :
    (wasActiveTransfer = true → truthy currentSelectedPath = true →
        s.store.viewState ≠ .sharing ∧ s.store.viewState ≠ .transporting) ↔
      (s.finishStop wasActiveTransfer currentSelectedPath).MatchesShare := by
  unfold finishStop
  split
  · next hIdle =>
      refine ⟨fun _ => matchesShare_of_reset rfl rfl, fun _ hActive hPath => ?_⟩
      simp [hActive, hPath] at hIdle
  · next hActive =>
      simp only [Bool.or_eq_true, Bool.not_eq_true', not_or, Bool.not_eq_false] at hActive
      constructor
      · intro h
        obtain ⟨hSharing, hTransporting⟩ := h hActive.1 hActive.2
        refine ⟨?_, fun hReset => ⟨(hs.reset hReset).1, rfl⟩⟩
        rintro (hView | hView)
        · exact absurd hView hSharing
        · exact absurd hView hTransporting
      · intro h _ _
        refine ⟨fun hView => ?_, fun hView => ?_⟩
        · exact h.ticket (Or.inl hView) rfl
        · exact h.ticket (Or.inr hView) rfl

/-- A continuation keeps the view matched exactly under its part of the condition. -/
theorem continuationKeeps_iff {p : SenderPending} {now : Nat} {reply : SenderReply}
    (hs : s.MatchesShare) (hNext : s.continueWith now p reply = some t) :
    s.ContinuationKeeps p reply ↔ t.MatchesShare := by
  cases p with
  | sendItems =>
      cases reply with
      | ticket ticket =>
          obtain rfl := Option.some.inj hNext
          refine ((matchesShare_of_shown ?_).trans ?_).symm
          · exact Or.inl rfl
          · exact ⟨fun h => h.2, fun h => ⟨nofun, h⟩⟩
      | failed error =>
          obtain rfl := Option.some.inj hNext
          exact ⟨fun _ => hs.of_sameView ⟨rfl, rfl, rfl⟩, fun _ => trivial⟩
      | done => cases hNext
      | size bytes => cases hNext
      | type pathType => cases hNext
  | stopSharing wasActiveTransfer currentSelectedPath =>
      cases reply with
      | done =>
          obtain rfl := Option.some.inj hNext
          rw [← finishStop_matchesShare hs]
          cases wasActiveTransfer with
          | true => exact ⟨fun h _ => h, fun h => h rfl⟩
          | false => exact ⟨fun _ h => (nomatch h), fun _ => trivial⟩
      | failed error =>
          obtain rfl := Option.some.inj hNext
          refine ⟨fun _ => hs.of_sameView ⟨rfl, rfl, rfl⟩, fun _ => ?_⟩
          cases wasActiveTransfer <;> trivial
      | ticket ticket => cases hNext
      | size bytes => cases hNext
      | type pathType => cases hNext
  | completed storeState =>
      cases reply with
      | done =>
          obtain rfl := Option.some.inj hNext
          exact finishCompleted_matchesShare hs storeState now
      | ticket ticket => cases hNext
      | size bytes => cases hNext
      | type pathType => cases hNext
      | failed error => cases hNext
  | fileSize metadata =>
      cases reply with
      | size bytes =>
          obtain rfl := Option.some.inj hNext
          exact ⟨fun _ => hs.of_sameView ⟨rfl, rfl, rfl⟩, fun _ => trivial⟩
      | failed error =>
          obtain rfl := Option.some.inj hNext
          exact ⟨fun _ => hs, fun _ => trivial⟩
      | done => cases hNext
      | ticket ticket => cases hNext
      | type pathType => cases hNext
  | broadcastReset =>
      cases reply with
      | done =>
          obtain rfl := Option.some.inj hNext
          exact resetForBroadcast_matchesShare hs rfl rfl
      | ticket ticket => cases hNext
      | size bytes => cases hNext
      | type pathType => cases hNext
      | failed error => cases hNext
  | pathType =>
      cases reply with
      | type pathType =>
          obtain rfl := Option.some.inj hNext
          exact ⟨fun _ => hs.of_sameView ⟨rfl, rfl, rfl⟩, fun _ => trivial⟩
      | failed error =>
          obtain rfl := Option.some.inj hNext
          exact ⟨fun _ => hs.of_sameView ⟨rfl, rfl, rfl⟩, fun _ => trivial⟩
      | done => cases hNext
      | ticket ticket => cases hNext
      | size bytes => cases hNext

/-- A step keeps the view matched exactly when it meets the condition. -/
theorem keepsShare_iff {step : SenderStep} (hs : s.MatchesShare) (hNext : s.next step = some t) :
    s.KeepsShare step ↔ t.MatchesShare := by
  cases step with
  | startSharing =>
      obtain rfl := Option.some.inj hNext
      exact ⟨fun _ => startSharing_matchesShare hs, fun _ => trivial⟩
  | stopSharing now =>
      obtain rfl := Option.some.inj hNext
      exact ⟨fun _ => stopSharing_matchesShare hs now, fun _ => trivial⟩
  | setBroadcast enabled =>
      obtain rfl := Option.some.inj hNext
      exact ⟨fun _ => hs.of_sameView ⟨rfl, rfl, rfl⟩, fun _ => trivial⟩
  | filesSelect paths providedPathType =>
      obtain rfl := Option.some.inj hNext
      exact ⟨fun _ => hs.of_sameView (filesSelect_sameView _ _), fun _ => trivial⟩
  | clearSelectedPath =>
      obtain rfl := Option.some.inj hNext
      exact ⟨fun _ => hs.of_sameView ⟨rfl, rfl, rfl⟩, fun _ => trivial⟩
  | removeSelectedPath path =>
      obtain rfl := Option.some.inj hNext
      exact ⟨fun _ => hs.of_sameView (removeSelectedPath_sameView path), fun _ => trivial⟩
  | activeConnectionCount count =>
      obtain rfl := Option.some.inj hNext
      exact ⟨fun _ => hs.of_sameView ⟨rfl, rfl, rfl⟩, fun _ => trivial⟩
  | transferStarted now =>
      obtain rfl := Option.some.inj hNext
      exact transferStarted_matchesShare hs now
  | transferProgress progress =>
      obtain rfl := Option.some.inj hNext
      refine ⟨fun _ => hs.of_sameView ?_, fun _ => trivial⟩
      unfold transferProgress
      split <;> exact ⟨rfl, rfl, rfl⟩
  | transferCompleted =>
      obtain rfl := Option.some.inj hNext
      refine ⟨fun _ => hs.of_sameView ?_, fun _ => trivial⟩
      unfold transferCompleted
      split <;> exact ⟨rfl, rfl, rfl⟩
  | transferFailed now =>
      obtain rfl := Option.some.inj hNext
      exact transferFailed_matchesShare hs now
  | rendered =>
      obtain rfl := Option.some.inj hNext
      exact ⟨fun _ => hs.of_sameView ⟨rfl, rfl, rfl⟩, fun _ => trivial⟩
  | intervalTick =>
      refine ⟨fun _ => hs.of_sameView ?_, fun _ => trivial⟩
      rw [next] at hNext
      split at hNext <;> obtain rfl := Option.some.inj hNext <;> exact ⟨rfl, rfl, rfl⟩
  | resume k now reply =>
      obtain ⟨p, hPending, hGo⟩ := Option.bind_eq_some_iff.mp hNext
      have hErased : ({ s with pending := s.pending.eraseIdx k } : SenderState).MatchesShare :=
        hs.of_sameView ⟨rfl, rfl, rfl⟩
      have hKeeps := continuationKeeps_iff hErased hGo
      rw [← hKeeps, KeepsShare]
      simp only [hPending, Option.mem_def, Option.some.injEq, forall_eq']
      rfl

end

end SenderState

/-- In every run, the view matches the share in each state that is passed
exactly when every step meets the condition. -/
theorem sender_view_matches_share_iff {steps : List SenderStep} {t : SenderState}
    (hRun : exec SenderState.next .initial steps = some t) :
    (∀ first m, first <+: steps → exec SenderState.next .initial first = some m →
      m.MatchesShare) ↔
      Meets SenderState.next SenderState.KeepsShare .initial steps := by
  have hStart : SenderState.initial.MatchesShare := ⟨by decide, nofun⟩
  exact (meets_iff_states (fun _ _ _ hs hNext => SenderState.keepsShare_iff hs hNext) hRun
    hStart).symm

/-- One file shared, sent and put away. -/
def sharedOnce : List SenderStep :=
  [.filesSelect ["/home/a.txt"] (some .file), .rendered, .startSharing, .resume 0 0 (.ticket "blob"),
    .transferStarted 5, .transferProgress ⟨10, 10, 1000⟩, .intervalTick, .transferCompleted,
    .resume 0 7 .done, .resume 0 7 (.size 10), .stopSharing 9]

theorem sender_view_matches_share_iff_sharedOnce : ∃ t,
    exec SenderState.next .initial sharedOnce = some t ∧ t.MatchesShare := by
  have hBoth : (∃ t, exec SenderState.next .initial sharedOnce = some t ∧ True) ∧
      Meets SenderState.next SenderState.KeepsShare .initial sharedOnce := by
    decide
  obtain ⟨⟨t, hRun, _⟩, hKeeps⟩ := hBoth
  have hStates := (sender_view_matches_share_iff hRun).mpr hKeeps
  exact ⟨t, hRun, hStates sharedOnce t List.prefix_rfl hRun⟩

/-- `transfer-started` of a share that was stopped meanwhile: the view shows a
transfer of nothing. -/
theorem transfer_shown_without_ticket :
    ¬∀ (steps : List SenderStep) (t : SenderState),
      exec SenderState.next .initial steps = some t → t.MatchesShare := by
  intro h
  have hRun : ∃ t, exec SenderState.next .initial
        [.filesSelect ["/home/a.txt"] (some .file), .rendered, .startSharing,
          .resume 0 0 (.ticket "blob"), .stopSharing 5, .resume 0 6 .done, .transferStarted 7] =
          some t ∧
      t.store.viewState = .transporting ∧ t.store.ticket = none := by
    decide
  obtain ⟨t, hRun, hView, hTicket⟩ := hRun
  exact (h _ t hRun).ticket (Or.inr hView) hTicket

end AltSendme.Frontend
