import AltSendme.Execution.Run
import Mathlib.Data.List.Basic
import Mathlib.Data.UInt

/-! The sender's progress task `show_provide_progress_with_logging`. The loop
that takes provider messages and the futures it pushes run on one task, so a
switch between them happens only at an await; a turn is what one of them does
from one await to the next. Times are in milliseconds, and the speed in a
progress event is left out. -/
namespace AltSendme.ProvideProgress

/-- `u64::saturating_add` -/
def saturatingAdd (a b : UInt64) : UInt64 := UInt64.ofNat (min (a.toNat + b.toNat) (2 ^ 64 - 1))

theorem saturatingAdd_toNat (a b : UInt64) :
    (saturatingAdd a b).toNat = min (a.toNat + b.toNat) (2 ^ 64 - 1) := by
  rw [saturatingAdd, UInt64.toNat_ofNat']
  omega

/-- `u64::saturating_mul` -/
def saturatingMul (a b : UInt64) : UInt64 := UInt64.ofNat (min (a.toNat * b.toNat) (2 ^ 64 - 1))

/-- A request counts as the payload transfer once nearly all bytes were sent. -/
def transferPayloadComplete (bytesSent totalSize : UInt64) : Bool :=
  if totalSize = 0 then true
  else saturatingMul bytesSent 100 ≥ saturatingMul totalSize 95

structure TransferState where
  startTime : Nat
  totalSize : UInt64
  accountedPayloadBytes : UInt64
  currentBlobSize : UInt64
  currentBlobEndOffset : UInt64
  ignoreCurrentBlob : Bool
  deriving DecidableEq, Repr

namespace TransferState

/-- The state a request gets with its first update. -/
def init (now : Nat) (totalSize : UInt64) (ignoreCurrentBlob : Bool) : TransferState :=
  { startTime := now, totalSize, accountedPayloadBytes := 0, currentBlobSize := 0
    currentBlobEndOffset := 0, ignoreCurrentBlob }

/-- The current blob counts as sent in full. -/
def accountBlob (s : TransferState) : TransferState :=
  if s.ignoreCurrentBlob then s
  else { s with
    accountedPayloadBytes :=
      min (saturatingAdd s.accountedPayloadBytes s.currentBlobSize) s.totalSize }

/-- The blob that a `Started` update begins. -/
def startBlob (now : Nat) (isMetadataBlob : Bool) (size : UInt64) (s : TransferState) :
    TransferState :=
  let accounted := s.accountBlob
  let restarted :=
    if s.ignoreCurrentBlob && !isMetadataBlob then
      { accounted with startTime := now, accountedPayloadBytes := 0 }
    else accounted
  { restarted with
    currentBlobSize := size, currentBlobEndOffset := 0, ignoreCurrentBlob := isMetadataBlob }

def progressBlob (endOffset : UInt64) (s : TransferState) : TransferState :=
  if s.ignoreCurrentBlob then s
  else { s with
    currentBlobEndOffset := max (min endOffset s.currentBlobSize) s.currentBlobEndOffset }

def transferred (s : TransferState) : UInt64 :=
  if s.ignoreCurrentBlob then s.accountedPayloadBytes
  else min (saturatingAdd s.accountedPayloadBytes s.currentBlobEndOffset) s.totalSize

end TransferState

/-- `(connection_id, request_id)` -/
abbrev RequestKey := UInt64 × UInt64

inductive SendEvent where
  | sharePeerConnected (endpointId : String)
  | activeConnectionCount (count : Nat)
  | transferStarted
  | transferProgress (bytesTransferred totalSize : UInt64)
  | transferCompleted
  | transferFailed
  deriving DecidableEq, Repr

/-- What the loop and the requests share. -/
structure Shared where
  transferStates : List (RequestKey × TransferState)
  activeRequests : Nat
  completedRequests : Nat
  hasEmittedStarted : Bool
  hasEmittedCompleted : Bool
  lastRequestTime : Option Nat
  events : List SendEvent
  deriving DecidableEq, Repr

namespace Shared

def emit (p : Shared) (event : SendEvent) : Shared := { p with events := p.events ++ [event] }

def getState (p : Shared) (key : RequestKey) : Option TransferState := p.transferStates.lookup key

/-- `bytes_sent.unwrap_or(0)` -/
def accountedBytes (p : Shared) (key : RequestKey) : UInt64 :=
  ((p.getState key).map (·.accountedPayloadBytes)).getD 0

def insertState (p : Shared) (key : RequestKey) (s : TransferState) : Shared :=
  { p with transferStates := (key, s) :: p.transferStates.filter fun entry => entry.1 != key }

def modifyState (p : Shared) (key : RequestKey) (change : TransferState → TransferState) :
    Shared :=
  { p with transferStates := p.transferStates.map fun entry =>
      if entry.1 = key then (entry.1, change entry.2) else entry }

def removeState (p : Shared) (key : RequestKey) : Shared :=
  { p with transferStates := p.transferStates.filter fun entry => entry.1 != key }

/-- `emit_active_connection_count` with the number of states. -/
def emitActiveCount (p : Shared) : Shared :=
  p.emit (.activeConnectionCount p.transferStates.length)

/-- `has_emitted_started.swap(true)` -/
def emitStarted (p : Shared) : Shared :=
  if p.hasEmittedStarted then p
  else { p with hasEmittedStarted := true }.emit .transferStarted

/-- `has_emitted_completed.swap(true)` -/
def emitCompleted (p : Shared) : Shared :=
  if p.hasEmittedCompleted then p
  else { p with hasEmittedCompleted := true }.emit .transferCompleted

end Shared

inductive RequestUpdate where
  | started (index size : UInt64)
  | progress (endOffset : UInt64)
  | completed
  | aborted
  deriving DecidableEq, Repr

/-- A first update of this kind makes a state that ignores its blob. -/
def RequestUpdate.isProgress : RequestUpdate → Bool
  | .progress _ => true
  | _ => false

/-- How a request was taken out of the books. -/
inductive RequestEnd where
  | complete (bytesSent : UInt64)
  | incomplete
  | aborted
  deriving DecidableEq, Repr

/-- Where the future of a request stands. `resume` is where it goes on after the
wait for further requests. -/
inductive RequestStage where
  /-- `rx.recv()` -/
  | receiving
  /-- the lock for the first state of the request -/
  | inserting (update : RequestUpdate)
  | accounting (index size : UInt64)
  | measuring (endOffset : UInt64)
  | finishing
  | removing (bytesSent : UInt64)
  | aborting
  /-- the lock after the stream has closed -/
  | closing
  | sleeping (wakeAt activeBeforeWait : Nat) (resume : RequestStage)
  /-- the lock for `has_active_transfers`; `quiet` is what the counters said -/
  | checkingStates (quiet : Bool) (resume : RequestStage)
  | checkingLast (quiet : Bool) (resume : RequestStage)
  | returned
  deriving DecidableEq, Repr

/-- `ended` is `request_completed`, with how; the path after the stream has
closed sets it too. -/
structure Request where
  key : RequestKey
  isSizesProbe : Bool
  transferStarted : Bool
  ended : Option RequestEnd
  stage : RequestStage
  deriving DecidableEq, Repr

inductive Input where
  | update (update : RequestUpdate)
  | closed
  /-- the awaited lock or timer -/
  | go
  deriving DecidableEq, Repr

namespace Request

/-- The branch of the update loop that an update takes. -/
def afterUpdate (r : Request) : RequestUpdate → RequestStage
  | .started index size =>
      if r.transferStarted then .accounting index size else .inserting (.started index size)
  | .progress endOffset =>
      if r.transferStarted then .measuring endOffset else .inserting (.progress endOffset)
  | .completed => if r.transferStarted && r.ended.isNone then .finishing else .receiving
  | .aborted => if r.transferStarted && r.ended.isNone then .aborting else .receiving

/-- The rest of the branch whose update made the first state. -/
def afterInsert : RequestUpdate → RequestStage
  | .started index size => .accounting index size
  | .progress endOffset => .measuring endOffset
  | .completed | .aborted => .receiving

def isMetadataBlob (entryType : String) (index : UInt64) : Bool :=
  (entryType = "directory" || entryType = "collection") && index = 0

/-- The counters after a request delivered its payload. The last one waits for
further requests. -/
def complete (now : Nat) (p : Shared) (r : Request) (bytesSent : UInt64)
    (resume : RequestStage) : Shared × Request :=
  let p := { p with completedRequests := p.completedRequests + 1 }
  let r := { r with ended := some (.complete bytesSent) }
  if p.completedRequests ≥ p.activeRequests then
    (p, { r with stage := .sleeping (now + 500) p.activeRequests resume })
  else (p, { r with stage := resume })

def incomplete (p : Shared) (r : Request) (resume : RequestStage) : Shared × Request :=
  ({ p with activeRequests := p.activeRequests - 1 },
    { r with ended := some .incomplete, stage := resume })

/-- One turn of a request. -/
def turn (total : UInt64) (entryType : String) (now : Nat) (p : Shared) (r : Request) :
    Input → Option (Shared × Request)
  | .update u =>
      if r.stage = .receiving then
        some (p, { r with stage := if r.isSizesProbe then .receiving else r.afterUpdate u })
      else none
  | .closed =>
      if r.stage = .receiving then
        let unfinished := !r.isSizesProbe && r.transferStarted && r.ended.isNone
        some (p, { r with stage := if unfinished then .closing else .returned })
      else none
  | .go =>
      match r.stage with
      | .receiving | .returned => none
      | .inserting u =>
          some (((p.insertState r.key (.init now total u.isProgress)).emitActiveCount).emitStarted,
            { r with transferStarted := true, stage := afterInsert u })
      | .accounting index size =>
          some (p.modifyState r.key (.startBlob now (isMetadataBlob entryType index) size),
            { r with stage := .receiving })
      | .measuring endOffset =>
          let p' := p.modifyState r.key (.progressBlob endOffset)
          match p'.getState r.key with
          | some s =>
              some (p'.emit (.transferProgress (min s.transferred s.totalSize) s.totalSize),
                { r with stage := .receiving })
          | none => some (p', { r with stage := .receiving })
      | .finishing =>
          let p' := p.modifyState r.key .accountBlob
          some (p', { r with stage := .removing (p'.accountedBytes r.key) })
      | .removing bytesSent =>
          let p' := (p.removeState r.key).emitActiveCount
          if transferPayloadComplete bytesSent total then
            some (complete now p' r bytesSent .receiving)
          else some (incomplete p' r .receiving)
      | .aborting =>
          let p' := (p.removeState r.key).emitActiveCount
          let p' := { p' with completedRequests := p'.completedRequests + 1 }
          some (if p'.completedRequests ≥ p'.activeRequests then p'.emit .transferFailed else p',
            { r with ended := some .aborted, stage := .receiving })
      | .closing =>
          let bytesSent := p.accountedBytes r.key
          if transferPayloadComplete bytesSent total then
          some (complete now p r bytesSent .returned)
          else some (incomplete p r .returned)
      | .sleeping wakeAt activeBeforeWait resume =>
          if now < wakeAt then none
          else
            let quiet := p.completedRequests ≥ p.activeRequests && p.completedRequests ≥ 1 &&
              !(p.activeRequests > activeBeforeWait)
            some (p, { r with stage := .checkingStates quiet resume })
      | .checkingStates quiet resume =>
          some (p, { r with stage := .checkingLast (quiet && p.transferStates.isEmpty) resume })
      | .checkingLast quiet resume =>
          let recent := p.lastRequestTime.any fun time => now - time < 500
          some (if quiet && !recent then p.emitCompleted else p, { r with stage := resume })

end Request

/-- A message of the provider. `isSizesProbe` is `is_sizes_probe_request` of the
ranges asked for. -/
inductive ProviderMessage where
  | clientConnected (endpointId : Option String)
  | connectionClosed
  | getRequestReceived (key : RequestKey) (isSizesProbe : Bool)
  | other
  deriving DecidableEq, Repr

/-- The loop takes messages until the channel closes, then waits for the
requests that are left. -/
inductive LoopStage where
  | receiving
  | draining
  | returned
  deriving DecidableEq, Repr

structure State where
  shared : Shared
  requests : List Request
  loop : LoopStage
  clock : Nat
  deriving DecidableEq, Repr

inductive Action where
  | message (message : ProviderMessage)
  | channelClosed
  | turn (request : Nat) (input : Input)
  /-- the check after the last request has ended -/
  | finish
  deriving DecidableEq, Repr

structure Label where
  now : Nat
  action : Action
  deriving DecidableEq, Repr

namespace Shared

/-- A request is counted before its future is pushed. -/
def requested (p : Shared) (now : Nat) (isSizesProbe : Bool) : Shared :=
  if isSizesProbe then p
  else { p with activeRequests := p.activeRequests + 1, lastRequestTime := some now }

/-- The last statements of the function. -/
def finish (p : Shared) : Shared :=
  if p.completedRequests ≥ p.activeRequests && p.completedRequests ≥ 1 && p.completedRequests > 0
  then p.emitCompleted
  else p

end Shared

namespace State

def idle : State :=
  { shared :=
      { transferStates := [], activeRequests := 0, completedRequests := 0
        hasEmittedStarted := false, hasEmittedCompleted := false, lastRequestTime := none
        events := [] }
    requests := [], loop := .receiving, clock := 0 }

def receive (c : State) (now : Nat) : ProviderMessage → State
  | .clientConnected (some endpointId) =>
      { c with shared := c.shared.emit (.sharePeerConnected endpointId) }
  | .clientConnected none | .connectionClosed | .other => c
  | .getRequestReceived key isSizesProbe =>
      { c with
        shared := c.shared.requested now isSizesProbe
        requests := c.requests ++
          [{ key, isSizesProbe, transferStarted := false, ended := none, stage := .receiving }] }

def act (total : UInt64) (entryType : String) (c : State) (now : Nat) : Action → Option State
  | .message message => if c.loop = .receiving then some (c.receive now message) else none
  | .channelClosed => if c.loop = .receiving then some { c with loop := .draining } else none
  | .turn t input => do
      let r ← c.requests[t]?
      let (shared, r') ← r.turn total entryType now c.shared input
      some { c with shared, requests := c.requests.set t r' }
  | .finish =>
      if c.loop = .draining ∧ ∀ r ∈ c.requests, r.stage = .returned then
        some { c with shared := c.shared.finish, loop := .returned }
      else none

end State

/-- The progress task of a share, for a collection of `total` bytes. -/
def step (total : UInt64) (entryType : String) (c : State) (l : Label) : Option State :=
  if l.now < c.clock then none
  else (c.act total entryType l.now l.action).map fun d => { d with clock := l.now }

end AltSendme.ProvideProgress
