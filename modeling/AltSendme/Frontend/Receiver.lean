import AltSendme.Execution.Run
import AltSendme.Frontend.PairedInvites
import AltSendme.Frontend.Transfer

/-! The receiver's view (`useReceiver.ts`). Its states and its refs are one
record; a render copies states into refs. What awaits goes on at any later
time, and an event names the download that sent it, which no handler can see. -/
namespace AltSendme.Frontend
open Execution

inductive Platform where
  | desktop
  | android
  | web
  deriving DecidableEq, Repr

structure TicketPreviewMetadata where
  fileName : String
  itemCount : Nat
  size : Nat
  mimeType : Option String
  deriving DecidableEq, Repr

/-- What is left of a handler or an effect that awaits, or a timer that is set. -/
inductive ReceiverPending where
  /-- `receiveWithTicket` awaits `downloadDir`. -/
  | downloadDir
  /-- `receiveWithTicket` awaits `receive_file`. -/
  | receiveFile
  /-- The preview effect waits 300 ms. -/
  | previewTimer (seq : Nat)
  /-- The preview effect awaits `fetch_ticket_metadata`. -/
  | previewFetch (seq : Nat)
  /-- `handleOpenFolder` awaits the file manager. -/
  | openFolder
  deriving DecidableEq, Repr

/-- `previewDeps` is what the preview effect last ran for, `notifications` the
bodies sent so far. Downloads are numbered in the order they start; those
before `endedBefore` were ended by a reset. No handler reads the last two. -/
structure ReceiverState where
  ticket : String
  isReceiving : Bool
  isTransporting : Bool
  isCompleted : Bool
  savePath : String
  downloadsUri : String
  transferMetadata : Option TransferMetadata
  transferProgress : Option TransferProgress
  transferStartTime : Option Nat
  fileNames : List String
  previewMetadata : Option TicketPreviewMetadata
  isPreviewLoading : Bool
  alertDialog : AlertDialog
  pendingConflictNoticeRef : Option String
  fileNamesRef : List String
  transferProgressRef : Option TransferProgress
  transferStartTimeRef : Option Nat
  savePathRef : String
  downloadsUriRef : String
  folderOpenTriggeredRef : Bool
  androidOpenUriRef : String
  speeds : List Int
  previewRequestSeqRef : Nat
  previewMetadataRef : Option TicketPreviewMetadata
  transferItemCountRef : Option Nat
  transferSeqRef : Nat
  previewDeps : Option (String × Bool)
  pending : List ReceiverPending
  notifications : List String
  started : Nat
  endedBefore : Nat
  deriving DecidableEq, Repr

/-- An error as `String(error)`, and its message where it is a web preview error. -/
structure ReceiverError where
  text : String
  webPreview : Option String
  deriving DecidableEq, Repr

inductive ReceiverReply where
  | done
  | path (path : String)
  | preview (metadata : TicketPreviewMetadata)
  | failed (error : ReceiverError)
  deriving DecidableEq, Repr

/-- What a download emits. `none` is a payload that does not parse. -/
inductive ReceiveEvent where
  | started
  | progress (payload : Option TransferProgress)
  | fileNames (payload : Option (List String))
  | conflicts (payload : Option (List (String × String)))
  | completed
  deriving DecidableEq, Repr

/-- User actions, backend events, renders, and what goes on by itself. `now` is
what `Date.now` says there. -/
inductive ReceiverStep where
  | ticketChange (newTicket : String)
  /-- The folder dialog answers, or the default folder does. -/
  | saveFolder (path : String) (uri : Option String)
  | closeAlert
  | handleReceive
  | acceptPairedInvite (invite : PairedInvitePayload)
  | resetForNewTransfer
  | openFolder
  | event (download : Nat) (event : ReceiveEvent) (now : Nat)
  | downloadFallback (path : String) (saf : Bool)
  | rendered
  | resume (pending : Nat) (reply : ReceiverReply)
  deriving DecidableEq, Repr

/-- A text of the catalogue, filled in. The catalogue itself is not modelled. -/
def translated (key filling : String) : String := key ++ "(" ++ filling ++ ")"

def normalizeSeparators (path : String) : String :=
  String.ofList (path.toList.map fun c => if c = '\\' then '/' else c)

def isAbsolutePath (path : String) : Bool :=
  match path.toList with
  | '/' :: _ => true
  | drive :: ':' :: separator :: _ => drive.isAlpha && (separator == '\\' || separator == '/')
  | _ => false

/-- The item of the download that a name belongs to. -/
def topLevelItem (name : String) : Option String :=
  let parts := segments (normalizeSeparators name)
  let item :=
    if isAbsolutePath (normalizeSeparators name) then (parts.filter (· ≠ "")).getLast?
    else parts.head?
  item.filter (· ≠ "")

def countTopLevelItems (names : List String) : Nat := (names.filterMap topLevelItem).eraseDups.length

/-- `normalizeSeparators(p).split('/').pop() || p` -/
def conflictName (path : String) : String :=
  let last := (segments (normalizeSeparators path)).getLastD ""
  if last = "" then path else last

def conflictNotice (conflicts : List (String × String)) : String :=
  let preview := String.intercalate "\n"
    ((conflicts.take 3).map fun c => conflictName c.1 ++ " → " ++ conflictName c.2)
  if conflicts.length > 3 then
    preview ++ "\n" ++ translated "common:receiver.conflictsMore" (toString (conflicts.length - 3))
  else preview

/-- The name a completed download is shown under. -/
def displayName (preview : Option TicketPreviewMetadata) (names : List String) (itemCount : Nat) :
    String :=
  if truthy (preview.map (·.fileName)) then (preview.map (·.fileName)).getD ""
  else
    match names with
    | [] => "common:receiver.downloadedFile"
    | first :: _ =>
        let parts := segments first
        if itemCount ≤ 1 then
          if parts.getLastD "" = "" then first else parts.getLastD ""
        else if parts.length > 1 ∧ parts.headD "" ≠ "" then parts.headD ""
        else translated "common:transfer.multipleFiles" (toString itemCount)

def receivedPathType (preview : Option TicketPreviewMetadata) (names : List String)
    (itemCount : Nat) : Option PathType :=
  match preview with
  | some metadata => if metadata.mimeType = some "inode/directory" then some .directory else some .file
  | none =>
      if itemCount = 1 then if names.length > 1 then some .directory else some .file
      else none

namespace ReceiverState

def initial : ReceiverState :=
  { ticket := "", isReceiving := false, isTransporting := false, isCompleted := false
    savePath := "", downloadsUri := "", transferMetadata := none, transferProgress := none
    transferStartTime := none, fileNames := [], previewMetadata := none, isPreviewLoading := false
    alertDialog := ⟨false, "", ""⟩, pendingConflictNoticeRef := none, fileNamesRef := []
    transferProgressRef := none, transferStartTimeRef := none, savePathRef := ""
    downloadsUriRef := "", folderOpenTriggeredRef := false, androidOpenUriRef := "", speeds := []
    previewRequestSeqRef := 0, previewMetadataRef := none, transferItemCountRef := none
    transferSeqRef := 0, previewDeps := none, pending := [], notifications := [], started := 0
    endedBefore := 0 }

def await (s : ReceiverState) (p : ReceiverPending) : ReceiverState :=
  { s with pending := s.pending ++ [p] }

def showAlert (s : ReceiverState) (title description : String) : ReceiverState :=
  { s with alertDialog := ⟨true, title, description⟩ }

def setPreview (s : ReceiverState) (metadata : Option TicketPreviewMetadata) : ReceiverState :=
  { s with previewMetadata := metadata, previewMetadataRef := metadata }

/-! The listeners. -/

/-- Each of them looks at the counter first. -/
def listening (s : ReceiverState) (handler : ReceiverState → ReceiverState) : ReceiverState :=
  if s.transferSeqRef = 0 then s else handler s

def receiveStarted (s : ReceiverState) (now : Nat) : ReceiverState :=
  s.listening fun s => { s with
    isTransporting := true
    isCompleted := false
    transferStartTime := some now
    transferProgress := none
    speeds := [] }

/-- The averager keeps ten speeds; the expected time is computed from them. -/
def receiveProgress (s : ReceiverState) (payload : Option TransferProgress) : ReceiverState :=
  s.listening fun s =>
    match payload with
    | none => s
    | some progress =>
        let speeds := s.speeds ++ [progress.speedInt]
        { s with
          speeds := if speeds.length > 10 then speeds.tail else speeds
          transferProgress := some progress }

def receiveFileNames (s : ReceiverState) (payload : Option (List String)) : ReceiverState :=
  s.listening fun s =>
    match payload with
    | none => s
    | some names => { s with fileNames := names, fileNamesRef := names }

def receiveConflicts (s : ReceiverState) (payload : Option (List (String × String))) :
    ReceiverState :=
  s.listening fun s =>
    match payload with
    | none => s
    | some conflicts =>
        if conflicts.isEmpty then s
        else { s with pendingConflictNoticeRef := some (conflictNotice conflicts) }

def receiveCompleted (s : ReceiverState) (now : Nat) : ReceiverState :=
  s.listening fun s =>
    let itemCount := s.transferItemCountRef.getD (countTopLevelItems s.fileNamesRef)
    let name := displayName s.previewMetadataRef s.fileNamesRef itemCount
    let startTime := s.transferStartTimeRef.filter (· ≠ 0)
    let metadata : TransferMetadata :=
      { fileName := name
        fileSize := (s.transferProgressRef.map (·.totalBytes)).getD 0
        duration := (startTime.map (now - ·)).getD 0
        startTime := startTime.getD now
        endTime := now
        downloadPath := some s.savePathRef
        wasStopped := false
        pathType := receivedPathType s.previewMetadataRef s.fileNamesRef itemCount
        itemCount := if itemCount > 1 then some itemCount else none }
    let s : ReceiverState := { s with
      isTransporting := false
      isCompleted := true
      transferProgress := none
      transferMetadata := some metadata
      notifications := s.notifications ++ [name] }
    match s.pendingConflictNoticeRef.filter (· ≠ "") with
    | none => s
    | some notice =>
        { s.showAlert "common:receiver.downloadCompletedWithConflicts" notice with
          pendingConflictNoticeRef := none }

def receive (s : ReceiverState) (now : Nat) : ReceiveEvent → ReceiverState
  | .started => s.receiveStarted now
  | .progress payload => s.receiveProgress payload
  | .fileNames payload => s.receiveFileNames payload
  | .conflicts payload => s.receiveConflicts payload
  | .completed => s.receiveCompleted now

/-- The one listener without the guard. -/
def receiveDownloadFallback (s : ReceiverState) (platform : Platform) (path : String) (saf : Bool) :
    ReceiverState :=
  let fallbackPath := trim path
  if platform ≠ .android ∨ fallbackPath = "" then s
  else
    let description :=
      if saf then "common:receiver.downloadFallbackSafDescription"
      else "common:receiver.downloadFallbackDescription"
    { s.showAlert "common:receiver.downloadFallbackTitle" (translated description fallbackPath) with
      androidOpenUriRef := ""
      savePath := fallbackPath
      transferMetadata := s.transferMetadata.map fun metadata =>
        { metadata with downloadPath := some fallbackPath } }

/-! The actions. -/

def receiveWithTicket (s : ReceiverState) (platform : Platform) (ticketValue : String) :
    ReceiverState :=
  if trim ticketValue = "" then s
  else
    let s : ReceiverState := { s with
      transferItemCountRef := s.transferItemCountRef.or
        ((s.previewMetadataRef.or s.previewMetadata).map (·.itemCount))
      previewRequestSeqRef := s.previewRequestSeqRef + 1
      transferSeqRef := s.transferSeqRef + 1
      isReceiving := true
      isTransporting := false
      isCompleted := false
      transferMetadata := none
      transferProgress := none
      transferStartTime := none
      isPreviewLoading := false
      pendingConflictNoticeRef := none
      folderOpenTriggeredRef := false
      androidOpenUriRef := if platform = .android then trim s.downloadsUriRef else ""
      started := s.started + 1 }
    if trim s.savePathRef = "" ∧ platform = .desktop then s.await .downloadDir
    else s.await .receiveFile

/-- The `catch` of `receiveWithTicket`. -/
def receiveFailed (s : ReceiverState) (error : ReceiverError) : ReceiverState :=
  if error.text = "cancelled" ∨ (": cancelled".toList).isSuffixOf error.text.toList then s
  else
    let description :=
      match error.webPreview with
      | none => error.text
      | some message =>
          if trim message = "" then "common:webPreview.transferUnavailable" else trim message
    { s.showAlert "common:errors.receiveFailed" description with
      isReceiving := false, isTransporting := false, isCompleted := false }

def acceptPairedInvite (s : ReceiverState) (platform : Platform) (invite : PairedInvitePayload) :
    ReceiverState :=
  if s.isReceiving || s.isTransporting then
    s.showAlert "common:receiver.receiveBusyTitle" "common:receiver.receiveBusyDescription"
  else
    let preview : TicketPreviewMetadata :=
      { fileName := invite.senderName
        itemCount := invite.fileCount
        size := invite.totalSize
        mimeType := if invite.fileCount > 1 then some "application/x-iroh-collection" else none }
    { s.setPreview (some preview) with
      ticket := invite.blobTicket
      transferItemCountRef := some invite.fileCount
      previewRequestSeqRef := s.previewRequestSeqRef + 1
      isPreviewLoading := false }.receiveWithTicket platform invite.blobTicket

def resetForNewTransfer (s : ReceiverState) : ReceiverState :=
  { s with
    transferSeqRef := 0
    previewRequestSeqRef := s.previewRequestSeqRef + 1
    isReceiving := false
    isTransporting := false
    isCompleted := false
    ticket := ""
    transferMetadata := none
    transferProgress := none
    transferStartTime := none
    fileNames := []
    previewMetadata := none
    isPreviewLoading := false
    pendingConflictNoticeRef := none
    folderOpenTriggeredRef := false
    androidOpenUriRef := ""
    transferItemCountRef := none
    endedBefore := s.started }

def openFolder (s : ReceiverState) (platform : Platform) : ReceiverState :=
  if platform = .web ∨ s.folderOpenTriggeredRef then s
  else if platform = .android then
    if trim s.androidOpenUriRef = "" then
      s.showAlert "common:errors.openFolderFailed" "common:errors.openFolderUnavailableDesc"
    else { s with folderOpenTriggeredRef := true }.await .openFolder
  else if s.savePath = "" then s
  else { s with folderOpenTriggeredRef := true }.await .openFolder

/-- The preview effect, after the cleanup of its last run. -/
def previewEffect (s : ReceiverState) : ReceiverState :=
  let seq := s.previewRequestSeqRef + 1
  let s : ReceiverState := { s with
    previewRequestSeqRef := seq
    previewDeps := some (s.ticket, s.isReceiving)
    pending := s.pending.filter fun
      | .previewTimer _ => false
      | _ => true }
  if s.isReceiving then { s with isPreviewLoading := false }
  else if trim s.ticket = "" then { s.setPreview none with isPreviewLoading := false }
  else { s.setPreview none with isPreviewLoading := true }.await (.previewTimer seq)

def rendered (s : ReceiverState) : ReceiverState :=
  let s : ReceiverState := { s with
    fileNamesRef := s.fileNames
    transferProgressRef := s.transferProgress
    transferStartTimeRef := s.transferStartTime
    savePathRef := s.savePath
    downloadsUriRef := s.downloadsUri }
  if s.previewDeps = some (s.ticket, s.isReceiving) then s else s.previewEffect

def previewFetched (s : ReceiverState) (seq : Nat) (metadata : Option TicketPreviewMetadata) :
    ReceiverState :=
  if s.previewRequestSeqRef = seq then { s.setPreview metadata with isPreviewLoading := false } else s

/-- What a continuation does with its reply; a reply of another kind never comes. -/
def continueWith (s : ReceiverState) : ReceiverPending → ReceiverReply → Option ReceiverState
  | .downloadDir, .path outputPath =>
      some ({ s with savePath := outputPath, savePathRef := outputPath }.await .receiveFile)
  | .downloadDir, .failed error => some (s.receiveFailed error)
  | .receiveFile, .done => some s
  | .receiveFile, .failed error => some (s.receiveFailed error)
  | .previewTimer seq, .done => some (s.await (.previewFetch seq))
  | .previewFetch seq, .preview metadata => some (s.previewFetched seq (some metadata))
  | .previewFetch seq, .failed _ => some (s.previewFetched seq none)
  | .openFolder, .done => some s
  | .openFolder, .failed error =>
      some ({ s with folderOpenTriggeredRef := false }.showAlert "common:errors.openFolderFailed"
        ("common:errors.openFolderFailedDesc" ++ ": " ++ error.text))
  | _, _ => none

def next (platform : Platform) (s : ReceiverState) : ReceiverStep → Option ReceiverState
  | .ticketChange newTicket => some { s with ticket := newTicket }
  | .saveFolder path uri =>
      some { s with savePath := path, downloadsUri := uri.getD s.downloadsUri }
  | .closeAlert => some { s with alertDialog := { s.alertDialog with isOpen := false } }
  | .handleReceive => some (s.receiveWithTicket platform s.ticket)
  | .acceptPairedInvite invite => some (s.acceptPairedInvite platform invite)
  | .resetForNewTransfer => some s.resetForNewTransfer
  | .openFolder => some (s.openFolder platform)
  | .event download event now => if download < s.started then some (s.receive now event) else none
  | .downloadFallback path saf => some (s.receiveDownloadFallback platform path saf)
  | .rendered => some s.rendered
  | .resume k reply => do
      let p ← s.pending[k]?
      { s with pending := s.pending.eraseIdx k }.continueWith p reply

/-- An event of a download that a reset ended comes while no newer one was started. -/
def ArrivesWhileIdle (s : ReceiverState) : ReceiverStep → Prop
  | .event download _ _ => download < s.endedBefore → s.started = s.endedBefore
  | _ => True

instance (s : ReceiverState) (step : ReceiverStep) : Decidable (s.ArrivesWhileIdle step) := by
  unfold ArrivesWhileIdle
  split <;> infer_instance

/-- An event of a download that a reset ended changes nothing. -/
def LateEventIgnored (platform : Platform) (s : ReceiverState) : ReceiverStep → Prop
  | .event download event now =>
      download < s.endedBefore → s.next platform (.event download event now) = some s
  | _ => True

/-- The counter counts the downloads since the last reset. -/
def CountsStarted (s : ReceiverState) : Prop := s.endedBefore + s.transferSeqRef = s.started

/-- No download is started or ended between the two states. -/
def SameDownloads (s t : ReceiverState) : Prop :=
  t.transferSeqRef = s.transferSeqRef ∧ t.started = s.started ∧ t.endedBefore = s.endedBefore

theorem CountsStarted.of_same {s t : ReceiverState} (hs : s.CountsStarted) (h : SameDownloads s t) :
    t.CountsStarted := by
  obtain ⟨hSeq, hStarted, hEnded⟩ := h
  rw [CountsStarted, hSeq, hStarted, hEnded]
  exact hs

theorem listening_same {s : ReceiverState} {handler : ReceiverState → ReceiverState}
    (h : SameDownloads s (handler s)) : SameDownloads s (s.listening handler) := by
  unfold listening
  split
  · exact ⟨rfl, rfl, rfl⟩
  · exact h

/-- Handling an event starts and ends no download. -/
theorem receive_same (s : ReceiverState) (now : Nat) (event : ReceiveEvent) :
    SameDownloads s (s.receive now event) := by
  cases event with
  | started => exact listening_same ⟨rfl, rfl, rfl⟩
  | progress payload =>
      apply listening_same
      cases payload <;> exact ⟨rfl, rfl, rfl⟩
  | fileNames payload =>
      apply listening_same
      cases payload <;> exact ⟨rfl, rfl, rfl⟩
  | conflicts payload =>
      apply listening_same
      cases payload with
      | none => exact ⟨rfl, rfl, rfl⟩
      | some conflicts =>
          dsimp only
          split <;> exact ⟨rfl, rfl, rfl⟩
  | completed =>
      apply listening_same
      dsimp only
      split <;> exact ⟨rfl, rfl, rfl⟩

/-- Where nothing was started since the reset, every event is ignored. -/
theorem receive_of_idle {s : ReceiverState} (h : s.transferSeqRef = 0) (now : Nat)
    (event : ReceiveEvent) : s.receive now event = s := by
  cases event <;> exact if_pos h

theorem receiveDownloadFallback_same (s : ReceiverState) (platform : Platform) (path : String)
    (saf : Bool) : SameDownloads s (s.receiveDownloadFallback platform path saf) := by
  unfold receiveDownloadFallback
  dsimp only
  split <;> exact ⟨rfl, rfl, rfl⟩

theorem receiveFailed_same (s : ReceiverState) (error : ReceiverError) :
    SameDownloads s (s.receiveFailed error) := by
  unfold receiveFailed
  split <;> exact ⟨rfl, rfl, rfl⟩

theorem openFolder_same (s : ReceiverState) (platform : Platform) :
    SameDownloads s (s.openFolder platform) := by
  unfold openFolder
  split
  · exact ⟨rfl, rfl, rfl⟩
  · split
    · split <;> exact ⟨rfl, rfl, rfl⟩
    · split <;> exact ⟨rfl, rfl, rfl⟩

theorem rendered_same (s : ReceiverState) : SameDownloads s s.rendered := by
  unfold rendered
  dsimp only
  split
  · exact ⟨rfl, rfl, rfl⟩
  · unfold previewEffect
    dsimp only
    split
    · exact ⟨rfl, rfl, rfl⟩
    · split <;> exact ⟨rfl, rfl, rfl⟩

theorem previewFetched_same (s : ReceiverState) (seq : Nat)
    (metadata : Option TicketPreviewMetadata) : SameDownloads s (s.previewFetched seq metadata) := by
  unfold previewFetched
  split <;> exact ⟨rfl, rfl, rfl⟩

/-- Going on after an await starts no download. -/
theorem continueWith_same {s t : ReceiverState} {p : ReceiverPending} {reply : ReceiverReply}
    (hNext : s.continueWith p reply = some t) : SameDownloads s t := by
  unfold continueWith at hNext
  split at hNext
  · obtain rfl := Option.some.inj hNext
    exact ⟨rfl, rfl, rfl⟩
  · obtain rfl := Option.some.inj hNext
    exact receiveFailed_same s _
  · obtain rfl := Option.some.inj hNext
    exact ⟨rfl, rfl, rfl⟩
  · obtain rfl := Option.some.inj hNext
    exact receiveFailed_same s _
  · obtain rfl := Option.some.inj hNext
    exact ⟨rfl, rfl, rfl⟩
  · obtain rfl := Option.some.inj hNext
    exact previewFetched_same s _ _
  · obtain rfl := Option.some.inj hNext
    exact previewFetched_same s _ _
  · obtain rfl := Option.some.inj hNext
    exact ⟨rfl, rfl, rfl⟩
  · obtain rfl := Option.some.inj hNext
    exact ⟨rfl, rfl, rfl⟩
  · cases hNext

/-- A download that is started is counted. -/
theorem receiveWithTicket_counts {s : ReceiverState} (hs : s.CountsStarted) (platform : Platform)
    (ticketValue : String) : (s.receiveWithTicket platform ticketValue).CountsStarted := by
  have hCount : s.endedBefore + (s.transferSeqRef + 1) = s.started + 1 := by
    rw [← hs]
    omega
  unfold receiveWithTicket
  split
  · exact hs
  · dsimp only
    split <;> exact hCount

/-- A download accepted from an invite is counted. -/
theorem acceptPairedInvite_counts {s : ReceiverState} (hs : s.CountsStarted) (platform : Platform)
    (invite : PairedInvitePayload) : (s.acceptPairedInvite platform invite).CountsStarted := by
  unfold acceptPairedInvite
  split
  · exact hs.of_same ⟨rfl, rfl, rfl⟩
  · apply receiveWithTicket_counts
    exact hs

/-- Every step keeps the counter at the started downloads. -/
theorem counts_step {platform : Platform} {s t : ReceiverState} {step : ReceiverStep}
    (hs : s.CountsStarted) (hNext : s.next platform step = some t) : t.CountsStarted := by
  cases step with
  | ticketChange newTicket =>
      obtain rfl := Option.some.inj hNext
      exact hs
  | saveFolder path uri =>
      obtain rfl := Option.some.inj hNext
      exact hs
  | closeAlert =>
      obtain rfl := Option.some.inj hNext
      exact hs
  | handleReceive =>
      obtain rfl := Option.some.inj hNext
      exact receiveWithTicket_counts hs platform s.ticket
  | acceptPairedInvite invite =>
      obtain rfl := Option.some.inj hNext
      exact acceptPairedInvite_counts hs platform invite
  | resetForNewTransfer =>
      obtain rfl := Option.some.inj hNext
      rfl
  | openFolder =>
      obtain rfl := Option.some.inj hNext
      exact hs.of_same (openFolder_same s platform)
  | event download event now =>
      rw [next] at hNext
      split at hNext
      · obtain rfl := Option.some.inj hNext
        exact hs.of_same (receive_same s now event)
      · cases hNext
  | downloadFallback path saf =>
      obtain rfl := Option.some.inj hNext
      exact hs.of_same (receiveDownloadFallback_same s platform path saf)
  | rendered =>
      obtain rfl := Option.some.inj hNext
      exact hs.of_same (rendered_same s)
  | resume k reply =>
      obtain ⟨p, _, hGo⟩ := Option.bind_eq_some_iff.mp hNext
      have hErased : ({ s with pending := s.pending.eraseIdx k } : ReceiverState).CountsStarted := hs
      exact hErased.of_same (continueWith_same hGo)

/-- An event that arrives while nothing is received is ignored. -/
theorem lateEventIgnored_of_idle {platform : Platform} {s : ReceiverState} {step : ReceiverStep}
    (hs : s.CountsStarted) (hIdle : s.ArrivesWhileIdle step) : s.LateEventIgnored platform step := by
  cases step with
  | event download event now =>
      intro hEnded
      have hNone : s.transferSeqRef = 0 := by
        have hSame := hIdle hEnded
        rw [CountsStarted] at hs
        omega
      have hKnown : download < s.started := by
        rw [← hs]
        omega
      rw [next, if_pos hKnown, receive_of_idle hNone]
  | _ => trivial

/-- In every reachable state the condition is exact for a completion: it leaves
its mark on the notifications unless no download was started since the reset. -/
theorem completion_ignored_iff {platform : Platform} {steps : List ReceiverStep} {s : ReceiverState}
    (hRun : exec (next platform) initial steps = some s) (now : Nat) :
    s.receive now .completed = s ↔ s.started = s.endedBefore := by
  have hs : s.CountsStarted :=
    exec_invariant (fun _ _ _ hs hNext => counts_step hs hNext) hRun rfl
  constructor
  · intro hSame
    by_contra hNewer
    have hListens : ¬s.transferSeqRef = 0 := by
      rw [CountsStarted] at hs
      omega
    have hMore : (s.receive now .completed).notifications.length = s.notifications.length + 1 := by
      rw [receive, receiveCompleted, listening, if_neg hListens]
      dsimp only
      split <;> simp [showAlert]
    rw [hSame] at hMore
    omega
  · intro hNone
    rw [CountsStarted] at hs
    exact receive_of_idle (by omega) now _

end ReceiverState

/-- In every run whose late events come while no newer download was started,
no event of an ended download changes the receiver's state. -/
theorem late_events_ignored {platform : Platform} {steps : List ReceiverStep}
    (hIdle : Meets (ReceiverState.next platform) ReceiverState.ArrivesWhileIdle .initial steps) :
    Meets (ReceiverState.next platform) (ReceiverState.LateEventIgnored platform) .initial steps :=
  hIdle.of_invariant (fun _ _ _ hs _ hNext => ReceiverState.counts_step hs hNext)
    (fun _ _ hs hMeets => ReceiverState.lateEventIgnored_of_idle hs hMeets) rfl

/-- A download is given up, and its completion comes after the reset. -/
def lateAfterReset : List ReceiverStep :=
  [.saveFolder "/home" none, .ticketChange "blob", .rendered, .handleReceive, .event 0 .started 5,
    .resetForNewTransfer, .event 0 .completed 7]

theorem late_events_ignored_lateAfterReset :
    Meets (ReceiverState.next .desktop) (ReceiverState.LateEventIgnored .desktop) .initial
      lateAfterReset := by
  have hIdle : Meets (ReceiverState.next .desktop) ReceiverState.ArrivesWhileIdle .initial
      lateAfterReset := by
    decide
  exact late_events_ignored hIdle

/-- The completion of a download that was given up completes the next one. -/
theorem ghost_completion :
    ¬∀ (platform : Platform) (steps : List ReceiverStep),
      Meets (ReceiverState.next platform) (ReceiverState.LateEventIgnored platform) .initial
        steps := by
  intro h
  have hRun : ∃ s, exec (ReceiverState.next .desktop) .initial
        [.saveFolder "/home" none, .ticketChange "blob", .rendered, .handleReceive,
          .event 0 .started 5, .resetForNewTransfer, .ticketChange "other", .rendered,
          .handleReceive] = some s ∧
      0 < s.endedBefore ∧ s.isCompleted = false ∧
      ∃ t, s.next .desktop (.event 0 .completed 7) = some t ∧ t.isCompleted = true := by
    decide
  obtain ⟨s, hReach, hEnded, hBefore, t, hNext, hAfter⟩ := hRun
  have hSame := @Meets.at_step _ _ _ _ _ _ _ [] (.event 0 .completed 7) (h .desktop _) hReach hEnded
  obtain rfl := Option.some.inj (hNext.symm.trans hSame)
  rw [hBefore] at hAfter
  cases hAfter

end AltSendme.Frontend
