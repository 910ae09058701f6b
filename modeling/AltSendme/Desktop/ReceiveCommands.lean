import AltSendme.Execution.Pool
import Mathlib.Data.Finset.Basic

/-! The commands `receive_file` and `cancel_receive` of the desktop app. A
stage is what a call does between two of its awaits; the lock sections of
`AppState` are single stages. -/
namespace AltSendme.Desktop

/-- The fields of `AppState` that a receive uses. A cancel sender is named by
the call that made its channel. -/
structure AppState where
  currentReceiveCancel : Option Nat
  lastCancelledRecvHash : Option String
  deriving DecidableEq

/-- What resolves the receiver of a cancel channel. -/
inductive CancelSignal where
  | sent
  | dropped
  deriving DecidableEq

/-- What the commands of a session share. `recvStores` holds the hashes whose
`.sendme-recv-<hash>` directory a receive of this session has put on the disk. -/
structure Session where
  app : AppState
  signals : Nat → Option CancelSignal
  recvStores : Finset String

/-- The result of `download`. -/
inductive DownloadResult where
  | ok
  | cancelled
  | error
  deriving DecidableEq

inductive Stage where
  /-- `resolve_receive_output_dir` and `resolve_relay_mode_with_fallback` -/
  | resolving
  /-- `last_cancelled_recv_hash.take()` -/
  | takingStale
  | removingStale (staleHash : String)
  /-- the check for a running receive, which stores the sender -/
  | storingSender
  /-- `download`, up to the bound endpoint -/
  | binding
  | creatingStore
  /-- the `select!` of the transfer and the cancel receiver -/
  | transferring
  | closing (result : DownloadResult)
  /-- the last lock section of `receive_file` -/
  | updating (result : DownloadResult)
  | finished (result : DownloadResult)
  | refused
  deriving DecidableEq

/-- A command that was called, or the removal that a dropped guard spawned. -/
inductive Task where
  | receiving (incomingHash : Option String) (stage : Stage)
  | cancelling
  | cleaning (hash : String)
  | over
  deriving DecidableEq

/-- How an awaited call ends. `fail` tells whether it left a directory behind,
and `cancelled` is the branch of the `select!` on the cancel receiver. -/
inductive Answer where
  | ok
  | fail (left : Bool)
  | cancelled
  deriving DecidableEq

/-- The ticket of a receive is the content hash it parses to. -/
inductive Command where
  | receiveFile (ticket : Option String)
  | cancelReceive
  deriving DecidableEq

namespace Session

/-- `current_receive_cancel = None`: a sender that was still stored is dropped. -/
def clearCancel (s : Session) : Session :=
  { s with
    app := { s.app with currentReceiveCancel := none }
    signals := match s.app.currentReceiveCancel with
      | some sender => Function.update s.signals sender (some .dropped)
      | none => s.signals }

/-- `cancel_receive` -/
def cancelReceive (s : Session) : Session :=
  { s with
    app := { s.app with currentReceiveCancel := none }
    signals := match s.app.currentReceiveCancel with
      | some sender => Function.update s.signals sender (some .sent)
      | none => s.signals }

/-- The state update after a download: every failure is treated as a cancel. -/
def updateOutcome (s : Session) (incomingHash : Option String) (result : DownloadResult) :
    Session :=
  match result with
  | .ok => s.clearCancel
  | .cancelled | .error =>
      { s.clearCancel with app := { s.clearCancel.app with lastCancelledRecvHash := incomingHash } }

end Session

namespace Task

/-- What `receive_file` does with the slot it emptied: a directory of another
hash is removed, one of the same hash is kept for resuming. -/
def afterTake (newHash : String) : Option String → Stage
  | some staleHash => if staleHash != newHash then .removingStale staleHash else .storingSender
  | none => .storingSender

/-- One turn of a command. `self` names its cancel channel. -/
def turn (s : Session) (self : Nat) : Task → Answer → Option (Session × Task × List Task)
  | .receiving hash .resolving, .ok =>
      some (s, .receiving hash (if hash.isSome then .takingStale else .storingSender), [])
  | .receiving hash .resolving, .fail _ => some (s, .receiving hash .refused, [])
  | .receiving (some newHash) .takingStale, .ok =>
      some ({ s with app := { s.app with lastCancelledRecvHash := none } },
        .receiving (some newHash) (afterTake newHash s.app.lastCancelledRecvHash), [])
  | .receiving hash (.removingStale staleHash), .ok =>
      some ({ s with recvStores := s.recvStores.erase staleHash },
        .receiving hash .storingSender, [])
  | .receiving hash (.removingStale _), .fail _ => some (s, .receiving hash .storingSender, [])
  | .receiving hash .storingSender, .ok =>
      match s.app.currentReceiveCancel with
      | some _ => some (s, .receiving hash .refused, [])
      | none => some ({ s with app := { s.app with currentReceiveCancel := some self } },
          .receiving hash .binding, [])
  -- `BlobTicket::from_str` fails here, behind the stored sender
  | .receiving none .binding, _ => some (s, .receiving none (.updating .error), [])
  | .receiving hash .binding, .ok => some (s, .receiving hash .creatingStore, [])
  | .receiving hash .binding, .fail _ => some (s, .receiving hash (.updating .error), [])
  | .receiving (some hash) .creatingStore, .ok =>
      some ({ s with recvStores := insert hash s.recvStores },
        .receiving (some hash) .transferring, [])
  | .receiving (some hash) .creatingStore, .fail left =>
      some (if left then { s with recvStores := insert hash s.recvStores } else s,
        .receiving (some hash) (.updating .error), [])
  | .receiving hash .transferring, .ok => some (s, .receiving hash (.closing .ok), [])
  | .receiving hash .transferring, .fail _ => some (s, .receiving hash (.closing .error), [])
  | .receiving hash .transferring, .cancelled =>
      if (s.signals self).isSome then some (s, .receiving hash (.closing .cancelled), []) else none
  -- the cleanup guard is still armed
  | .receiving (some hash) (.closing .ok), .ok =>
      some (s, .receiving (some hash) (.updating .ok), [.cleaning hash])
  | .receiving hash (.closing .cancelled), .ok =>
      some (s, .receiving hash (.updating .cancelled), [])
  | .receiving hash (.closing .error), .ok => some (s, .receiving hash (.updating .error), [])
  -- `db2.shutdown()` fails
  | .receiving hash (.closing .cancelled), .fail _ =>
      some (s, .receiving hash (.updating .error), [])
  | .receiving hash (.closing .error), .fail _ => some (s, .receiving hash (.updating .error), [])
  | .receiving hash (.updating result), .ok =>
      some (s.updateOutcome hash result, .receiving hash (.finished result), [])
  | .cancelling, .ok => some (s.cancelReceive, .over, [])
  | .cleaning hash, .ok => some ({ s with recvStores := s.recvStores.erase hash }, .over, [])
  | .cleaning _, .fail _ => some (s, .over, [])
  | _, _ => none

end Task

def Command.start : Command → Task
  | .receiveFile ticket => .receiving ticket .resolving
  | .cancelReceive => .cancelling

/-- The commands of one session; what a restart finds is not this session's. -/
def commands : Execution.Pool Session Task Answer Command Empty where
  turn := fun s self _ task answer => task.turn s self answer
  start := Command.start
  restart := fun none _ => nomatch none

abbrev SessionConfig := Execution.Pool.Config Session Task

abbrev SessionLabel := Execution.Pool.Label Answer Command Empty

def step : SessionConfig → SessionLabel → Option SessionConfig := commands.next

/-- A session right after the app has started. -/
def launched : SessionConfig := ⟨⟨⟨none, none⟩, fun _ => none, ∅⟩, []⟩

namespace Stage

/-- Between its look at the stale hash and its check for a running receive. -/
def isStarting : Stage → Bool
  | .removingStale _ | .storingSender => true
  | _ => false

/-- Between storing its sender and its last lock section. -/
def isActive : Stage → Bool
  | .binding | .creatingStore | .transferring | .closing _ | .updating _ => true
  | _ => false

/-- `download` runs. -/
def isDownloading : Stage → Bool
  | .binding | .creatingStore | .transferring | .closing _ => true
  | _ => false

/-- The result a download has come to. -/
def result : Stage → Option DownloadResult
  | .closing result | .updating result | .finished result => some result
  | _ => none

end Stage

namespace Task

/-- What a turn of a command can do. -/
inductive Turns (s : Session) (self : Nat) : Task → Session → Task → List Task → Prop where
  | began (hash : String) :
      Turns s self (.receiving (some hash) .resolving) s (.receiving (some hash) .takingStale) []
  | beganUnparsed :
      Turns s self (.receiving none .resolving) s (.receiving none .storingSender) []
  | unresolved (hash : Option String) :
      Turns s self (.receiving hash .resolving) s (.receiving hash .refused) []
  | took (hash : String) : Turns s self (.receiving (some hash) .takingStale)
      { s with app := { s.app with lastCancelledRecvHash := none } }
      (.receiving (some hash) (afterTake hash s.app.lastCancelledRecvHash)) []
  | staleRemoved (hash : Option String) (staleHash : String) :
      Turns s self (.receiving hash (.removingStale staleHash))
        { s with recvStores := s.recvStores.erase staleHash } (.receiving hash .storingSender) []
  | staleKept (hash : Option String) (staleHash : String) :
      Turns s self (.receiving hash (.removingStale staleHash)) s
        (.receiving hash .storingSender) []
  | refused (hash : Option String) (sender : Nat)
      (hBusy : s.app.currentReceiveCancel = some sender) :
      Turns s self (.receiving hash .storingSender) s (.receiving hash .refused) []
  | stored (hash : Option String) (hFree : s.app.currentReceiveCancel = none) :
      Turns s self (.receiving hash .storingSender)
        { s with app := { s.app with currentReceiveCancel := some self } }
        (.receiving hash .binding) []
  | bound (hash : String) : Turns s self (.receiving (some hash) .binding) s
      (.receiving (some hash) .creatingStore) []
  | unbound (hash : Option String) :
      Turns s self (.receiving hash .binding) s (.receiving hash (.updating .error)) []
  | created (hash : String) : Turns s self (.receiving (some hash) .creatingStore)
      { s with recvStores := insert hash s.recvStores } (.receiving (some hash) .transferring) []
  | halfCreated (hash : String) : Turns s self (.receiving (some hash) .creatingStore)
      { s with recvStores := insert hash s.recvStores }
      (.receiving (some hash) (.updating .error)) []
  | uncreated (hash : String) : Turns s self (.receiving (some hash) .creatingStore) s
      (.receiving (some hash) (.updating .error)) []
  | transferred (hash : Option String) (result : DownloadResult)
      (hSignal : result = .cancelled → (s.signals self).isSome = true) :
      Turns s self (.receiving hash .transferring) s (.receiving hash (.closing result)) []
  | completed (hash : String) : Turns s self (.receiving (some hash) (.closing .ok)) s
      (.receiving (some hash) (.updating .ok)) [.cleaning hash]
  | closed (hash : Option String) (result result' : DownloadResult) (hResult : result ≠ .ok)
      (hResult' : result' = result ∨ result' = .error) :
      Turns s self (.receiving hash (.closing result)) s (.receiving hash (.updating result')) []
  | updated (hash : Option String) (result : DownloadResult) :
      Turns s self (.receiving hash (.updating result)) (s.updateOutcome hash result)
        (.receiving hash (.finished result)) []
  | cancelled : Turns s self .cancelling s.cancelReceive .over []
  | cleaned (hash : String) : Turns s self (.cleaning hash)
      { s with recvStores := s.recvStores.erase hash } .over []
  | uncleaned (hash : String) : Turns s self (.cleaning hash) s .over []

theorem turn_turns {s s' : Session} {self : Nat} {task task' : Task} {answer : Answer}
    {spawned : List Task} (h : task.turn s self answer = some (s', task', spawned)) :
    Turns s self task s' task' spawned := by
  unfold turn at h
  split at h
  case h_1 hash =>
    obtain ⟨rfl, rfl, rfl⟩ := by simpa using h
    cases hash with
    | none => exact .beganUnparsed
    | some hash => exact .began hash
  case h_6 hash =>
    split at h
    · next sender hBusy =>
        obtain ⟨rfl, rfl, rfl⟩ := by simpa using h
        exact .refused hash sender hBusy
    · next hFree =>
        obtain ⟨rfl, rfl, rfl⟩ := by simpa using h
        exact .stored hash hFree
  case h_8 hash hSome =>
    obtain ⟨rfl, rfl, rfl⟩ := by simpa using h
    cases hash with
    | none => exact (hSome rfl).elim
    | some hash => exact .bound hash
  case h_11 hash left =>
    obtain ⟨rfl, rfl, rfl⟩ := by simpa using h
    cases left with
    | true => exact .halfCreated hash
    | false => exact .uncreated hash
  case h_14 hash =>
    split at h
    · next hSignal =>
        obtain ⟨rfl, rfl, rfl⟩ := by simpa using h
        exact .transferred hash .cancelled fun _ => hSignal
    · cases h
  all_goals
    simp only [Option.some.injEq, Prod.mk.injEq, reduceCtorEq] at h
    try obtain ⟨rfl, rfl, rfl⟩ := h
  all_goals first
    | exact .transferred _ _ (by nofun)
    | exact .closed _ _ _ (by nofun) (Or.inl rfl)
    | exact .closed _ _ _ (by nofun) (Or.inr rfl)
    | constructor

end Task

/-- A command goes on `k` times, with nothing but success. -/
def oks (t k : Nat) : List SessionLabel := List.replicate k (.turn t .ok)

end AltSendme.Desktop
