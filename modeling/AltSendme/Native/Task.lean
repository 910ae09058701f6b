import AltSendme.Native.Node
import AltSendme.Execution.Pool

/-! The tasks of a node. A task is what it still has to do before its next
`await` on the outside (`todo`, one call for each access to the shared state,
in source order) and that `await` (`wait`). A call that branches pushes the
calls of the branch taken. -/
namespace AltSendme

/-- What the caller does with a store result: `let _ =`, `?`, or the body of
`if let Ok(Some(device))` after a remote `Forget`. -/
inductive StoreCont (Id : Type) where
  | ignore
  | propagate
  | unpaired (remote : Id) (paired : Bool)
  deriving DecidableEq

/-- The callers of `set_presence`. -/
inductive PresenceWriter where
  /-- `set_session`, after it put a connection into the table. -/
  | sessionSet
  /-- `remove_session`, after it took one out. -/
  | sessionRemoved
  /-- The `Err` branch of `connect_loop`. -/
  | attemptFailed
  /-- `Recognition`, in all three readers. -/
  | recognition
  /-- `invite_paired_device`, which has dialled on its own. -/
  | inviteFallback
  /-- `forget_paired` -/
  | forgotten
  /-- `Forget`, in both sessions. -/
  | unpaired
  deriving DecidableEq, Repr

/-- What the caller writes. -/
def PresenceWriter.online : PresenceWriter → Bool
  | .sessionSet | .recognition | .inviteFallback => true
  | .sessionRemoved | .attemptFailed | .forgotten | .unpaired => false

/-- One access to the shared state, to the network or to the disk. -/
inductive Call (Id : Type) where
  | afterHandshake (conn : Connection Id)
  | readPairingHostOpen (conn : Connection Id)
  | readAllowed (conn : Connection Id) (pairingHostOpen : Bool)
  | requireAllowed (remote : Id)
  | send (message : ControlMessage) (must : Bool)
  | afterMessage
  | checkInvite (conn : Connection Id) (invite : Invite)
  | emit (event : NodeEvent)
  | emitInviteResponse (remote : Id) (response : InviteResponse)
  | store (op : StoreOp) (cont : StoreCont Id)
  | storeWrite (op : StoreOp) (base : List PairedDevice) (cont : StoreCont Id)
  | touchNow (endpointId : String)
  | rememberHost (info : PairingInfo) (relayUrl : Option String)
  | getDevice (endpointId : String)
  | allowPeer (remote : Id)
  | disallow (remote : Id)
  | setAccessOpen (isOpen : Bool)
  | setPairingHostOpen (isOpen : Bool)
  | setPairingHostPersistent (persistent : Bool)
  | closeUnlessPersistent
  | takeExpireTask
  | spawnExpireTask
  | putExpireTask (handle : Nat)
  | setPresence (endpointId : String) (writer : PresenceWriter)
  | insertSession (key : String) (conn : Connection Id)
  | notifyWaiters (key : String)
  | removeSession (key : String)
  | removeConnectTask (key : String)
  | refresh
  | refreshTasks (active : List PairedDevice)
  | deviceStillActive (endpointId : String) (relayUrl : Option String)
  | checkRelayMode (relayMode : String)
  | setRelayMode (relayMode : String)
  | setHomeRelayUrl (url : String)
  | managerShutdown
  | clearSessions
  deriving DecidableEq

/-- Locals of `handle_connection` while it pairs. -/
structure PairingSession where
  remoteInfo : Option PairingInfo
  remoteVote : Option RememberVote
  inviteReceived : Bool
  deriving DecidableEq, Repr

def PairingSession.fresh : PairingSession := ⟨none, none, false⟩

/-- Where a task awaits the outside. `joined` is the end of `join_pairing`,
which returns and drops the last handle of its connection. -/
inductive Wait (Id : Type) where
  /-- `handle_connection`: `accept_bi`, the message loop, `conn.closed()` -/
  | acceptBi (conn : Connection Id)
  | pairing (conn : Connection Id) (session : PairingSession)
  | holding (conn : Connection Id)
  /-- `handle_paired_peer_connection` -/
  | pairedExport (conn : Connection Id)
  | pairedAccept (conn : Connection Id)
  | pairedRead (conn : Connection Id)
  /-- `join_pairing` -/
  | joinConnect (remote : Id) (relayUrl : Option String)
  | joinOpen (conn : Connection Id) (relayUrl : Option String)
  | joinRead (conn : Connection Id) (relayUrl : Option String)
  | joined (conn : Connection Id)
  /-- `connect_loop` and its reader -/
  | connecting (endpointId : String) (relayUrl : Option String)
  | recognizing (endpointId : String) (relayUrl : Option String) (conn : Connection Id)
  | outboundAccept (endpointId : String) (relayUrl : Option String) (conn : Connection Id)
  | outboundRead (endpointId : String) (relayUrl : Option String) (conn : Connection Id)
  | backoff (endpointId : String) (relayUrl : Option String)
  /-- `invite_paired_device` (`fallbackPresence`) and `respond_paired_invite` -/
  | notifyWait (remote : Id) (endpointId : String) (message : ControlMessage)
      (fallbackPresence : Bool)
  | notifyConnect (remote : Id) (endpointId : String) (message : ControlMessage)
      (fallbackPresence : Bool)
  | notifyOpen (message : ControlMessage)
  | sleeping
  | supervising
  | rebuilding (relayMode : String)
  | returned (ok : Bool)
  deriving DecidableEq

structure Task (Id : Type) where
  todo : List (Call Id)
  wait : Wait Id
  deriving DecidableEq

/-- The answer of what a task awaits. `go` is success and carries the clock,
`closed` is the end of a connection or an elapsed timeout, `cancelled` is an
`abort` that takes effect. -/
inductive Input where
  | go (now : UInt64)
  | fail
  | message (message : ControlMessage)
  | connected (keying : List UInt8) (id : Nat) (sessionId : String)
  | closed
  | cancelled
  deriving DecidableEq

variable {Id : Type} [DecidableEq Id] [EndpointKeys Id]
open EndpointKeys (toStr fromStr)

/-- `pairing_host_is_persistent` -/
def pairingHostIsPersistent (ttlSecs : Option UInt64) : Bool := ttlSecs.isNone

def Task.returned (ok : Bool) : Task Id := ⟨[], .returned ok⟩

section Manager
/-! `PairedConnectionManager` -/

def setSession (key : String) (conn : Connection Id) : List (Call Id) :=
  [.insertSession key conn, .setPresence key .sessionSet, .touchNow key, .notifyWaiters key]

def registerInbound (endpointId : String) (conn : Connection Id) : List (Call Id) :=
  setSession endpointId.toLowercase conn

def unregisterInbound (endpointId : String) : List (Call Id) :=
  [.removeSession endpointId.toLowercase]

def managerForget (endpointId : String) : List (Call Id) :=
  [.removeConnectTask endpointId.toLowercase, .removeSession endpointId.toLowercase]

end Manager

/-- The `PairingInfo` this device sends, signed for this connection. -/
def ourInfo (identity : DeviceIdentity Id) (keying : List UInt8) : PairingInfo where
  endpointId := toStr identity.id
  displayName := identity.displayName
  deviceType := identity.deviceType
  os := identity.os
  signature := signChallenge identity.id keying

def rememberVote (conn : Connection Id) : ControlMessage := .rememberVote conn.sessionId .remember

/-- The record built from a `PairingInfo`, on both sides. -/
def deviceOfInfo (info : PairingInfo) (now : UInt64) (relayUrl : Option String) : PairedDevice where
  endpointId := info.endpointId
  displayName := info.displayName
  deviceType := info.deviceType
  os := info.os
  pairedAt := now
  lastSeenAt := now
  relayUrl := relayUrl
  pairingStatus := .active

/-- The check both sides make on a received `PairingInfo`: the claimed id must
parse and must have signed this connection's keying material. -/
def acceptedPeer (keying : List UInt8) (info : PairingInfo) : Option Id :=
  match fromStr info.endpointId with
  | none => none
  | some peerId => if verifyChallenge peerId keying info.signature then some peerId else none

/-- `Recognition`, in all three readers. -/
def onRecognition (conn : Connection Id) (signature : String) : List (Call Id) :=
  if verifyChallenge conn.remote conn.keying signature then
    [.touchNow (toStr conn.remote), .setPresence (toStr conn.remote) .recognition]
  else []

/-- `Forget`, in the pairing session and in the paired session. -/
def onForget (conn : Connection Id) (signature : String) (paired : Bool) : List (Call Id) :=
  if verifyChallenge conn.remote conn.keying signature then
    [.store (.markUnpairedRemotely (toStr conn.remote)) (.unpaired conn.remote paired)]
  else []

/-- The body run when the marked record existed. Only the paired session also
drops the manager's loop and session. -/
def onUnpaired (remote : Id) (paired : Bool) (device : PairedDevice) : List (Call Id) :=
  [.disallow remote, .setPresence (toStr remote) .unpaired] ++
    (if paired then managerForget (toStr remote) else []) ++
    [.emit (.deviceUnpaired device.endpointId (some device.displayName) "remote")]

/-- One message of the pairing session. A `continue` skips `afterMessage`. -/
def onPairingMessage (conn : Connection Id) (s : PairingSession) : ControlMessage → Task Id
  | .pairingInfo info =>
      match (acceptedPeer conn.keying info : Option Id) with
      | none => ⟨[], .pairing conn s⟩
      | some _ => ⟨[.afterMessage], .pairing conn { s with remoteInfo := some info }⟩
  | .rememberVote _ vote => ⟨[.afterMessage], .pairing conn { s with remoteVote := some vote }⟩
  | .invite invite => ⟨[.checkInvite conn invite], .pairing conn s⟩
  | .inviteResponse _ response =>
      ⟨[.emitInviteResponse conn.remote response, .afterMessage], .pairing conn s⟩
  | .recognition signature => ⟨onRecognition conn signature ++ [.afterMessage], .pairing conn s⟩
  | .forget signature => ⟨onForget conn signature false ++ [.afterMessage], .pairing conn s⟩

/-- The pairing session after its loop ended on a read error. -/
def pairingLoopEnded (conn : Connection Id) (s : PairingSession) : Task Id :=
  ⟨if s.remoteInfo.isSome then [.send (rememberVote conn) false] else [],
    if s.inviteReceived then .holding conn else .returned true⟩

/-- Both the identity and the vote are there: remember, allow, refresh, report,
send our vote and close a timed window. -/
def pairingCompleted (conn : Connection Id) (info : PairingInfo) (now : UInt64)
    (homeRelayUrl : Option String) : Task Id :=
  ⟨[.store (.remember (deviceOfInfo info now homeRelayUrl)) .ignore, .allowPeer conn.remote,
    .refresh, .emit .devicePaired, .send (rememberVote conn) false, .closeUnlessPersistent],
    .holding conn⟩

/-- One message of the paired session, with the message loop's two ways on. -/
def onPairedMessage (conn : Connection Id) : ControlMessage → Task Id
  | .invite invite =>
      ⟨[.emit (.pairedInviteReceived (toStr conn.remote) invite)], .pairedAccept conn⟩
  | .inviteResponse _ response =>
      ⟨[.emitInviteResponse conn.remote response], .pairedAccept conn⟩
  | .recognition signature => ⟨onRecognition conn signature, .pairedAccept conn⟩
  | .forget signature =>
      if verifyChallenge conn.remote conn.keying signature then
        ⟨onForget conn signature true ++ unregisterInbound (toStr conn.remote), .returned true⟩
      else ⟨[], .pairedAccept conn⟩
  | _ => ⟨[], .pairedAccept conn⟩

/-- One message of the outbound reader, which knows no `Forget`. -/
def onOutboundMessage (endpointId : String) (relayUrl : Option String) (conn : Connection Id) :
    ControlMessage → Task Id
  | .invite invite =>
      ⟨[.emit (.pairedInviteReceived (toStr conn.remote) invite)],
        .outboundAccept endpointId relayUrl conn⟩
  | .inviteResponse _ response =>
      ⟨[.emitInviteResponse conn.remote response], .outboundAccept endpointId relayUrl conn⟩
  | .recognition signature =>
      ⟨onRecognition conn signature, .outboundAccept endpointId relayUrl conn⟩
  | _ => ⟨[], .outboundAccept endpointId relayUrl conn⟩

/-- The first message the joiner reads must be the host's `PairingInfo`. -/
def onHostInfo (conn : Connection Id) (relayUrl : Option String) : ControlMessage → Task Id
  | .pairingInfo info =>
      match (acceptedPeer conn.keying info : Option Id) with
      | none => Task.returned false
      | some peerId =>
          ⟨[.rememberHost info relayUrl, .allowPeer peerId, .refresh, .emit .devicePaired],
            .joined conn⟩
  | _ => Task.returned false

/-- A store call has its result. -/
def StoreCont.resume (todo : List (Call Id)) (wait : Wait Id) :
    StoreCont Id → Except String (Option PairedDevice) → Task Id
  | .ignore, _ => ⟨todo, wait⟩
  | .propagate, .ok _ => ⟨todo, wait⟩
  | .propagate, .error _ => Task.returned false
  | .unpaired remote paired, .ok (some device) => ⟨onUnpaired remote paired device ++ todo, wait⟩
  | .unpaired _ _, _ => ⟨todo, wait⟩

namespace Wait

/-- The answer arrived; the task goes on to its next calls. An answer that
what it awaits cannot give is not a step. -/
def resume (n : Node Id) : Wait Id → Input → Option (Task Id)
  | .acceptBi conn, .go _ =>
      some ⟨[.send (.pairingInfo (ourInfo n.identity conn.keying)) true],
        .pairing conn PairingSession.fresh⟩
  | .acceptBi _, .fail => some (Task.returned false)
  | .pairing conn s, .message m => some (onPairingMessage conn s m)
  | .pairing conn s, .closed => some (pairingLoopEnded conn s)
  | .holding _, .closed => some (Task.returned true)
  | .pairedExport conn, .go _ => some ⟨[], .pairedAccept conn⟩
  | .pairedExport conn, .fail =>
      some ⟨unregisterInbound (toStr conn.remote), .returned false⟩
  | .pairedAccept conn, .go _ => some ⟨[], .pairedRead conn⟩
  | .pairedAccept conn, .closed => some ⟨unregisterInbound (toStr conn.remote), .returned true⟩
  | .pairedRead conn, .message m => some (onPairedMessage conn m)
  | .pairedRead conn, .fail => some ⟨[], .pairedAccept conn⟩
  | .joinConnect remote relayUrl, .connected keying id sessionId =>
      some ⟨[], .joinOpen ⟨id, remote, keying, sessionId⟩ relayUrl⟩
  | .joinConnect _ _, .fail => some (Task.returned false)
  | .joinOpen conn relayUrl, .go _ =>
      some ⟨[.send (.pairingInfo (ourInfo n.identity conn.keying)) true,
        .send (rememberVote conn) true], .joinRead conn relayUrl⟩
  | .joinOpen _ _, .fail => some (Task.returned false)
  | .joinRead conn relayUrl, .message m => some (onHostInfo conn relayUrl m)
  | .joinRead _ _, .closed => some (Task.returned false)
  | .joined _, .go _ => some (Task.returned true)
  | .connecting endpointId relayUrl, .connected keying id sessionId =>
      (fromStr endpointId).map fun remote =>
        ⟨[], .recognizing endpointId relayUrl ⟨id, remote, keying, sessionId⟩⟩
  | .connecting endpointId relayUrl, .fail =>
      some ⟨[.setPresence endpointId .attemptFailed], .backoff endpointId relayUrl⟩
  | .recognizing endpointId relayUrl conn, .go _ =>
      some ⟨setSession endpointId.toLowercase conn, .outboundAccept endpointId relayUrl conn⟩
  | .recognizing endpointId relayUrl _, .fail =>
      some ⟨[.setPresence endpointId .attemptFailed], .backoff endpointId relayUrl⟩
  | .outboundAccept endpointId relayUrl conn, .go _ =>
      some ⟨[], .outboundRead endpointId relayUrl conn⟩
  | .outboundAccept endpointId relayUrl _, .closed =>
      some ⟨[.removeSession endpointId.toLowercase], .backoff endpointId relayUrl⟩
  | .outboundRead endpointId relayUrl conn, .message m =>
      some (onOutboundMessage endpointId relayUrl conn m)
  | .outboundRead endpointId relayUrl conn, .fail =>
      some ⟨[], .outboundAccept endpointId relayUrl conn⟩
  | .outboundRead endpointId relayUrl _, .closed =>
      some ⟨[.removeSession endpointId.toLowercase], .backoff endpointId relayUrl⟩
  | .backoff endpointId relayUrl, .go _ =>
      some ⟨[.deviceStillActive endpointId relayUrl], .returned true⟩
  | .notifyWait _ endpointId message _, .go _ =>
      (n.sessions endpointId.toLowercase).map fun _ =>
        ⟨[], .notifyOpen message⟩
  | .notifyWait remote endpointId message fallbackPresence, .closed =>
      some ⟨[], .notifyConnect remote endpointId message fallbackPresence⟩
  | .notifyConnect _ endpointId message fallbackPresence, .connected _ _ _ =>
      some ⟨if fallbackPresence then [.touchNow endpointId, .setPresence endpointId .inviteFallback]
        else [], .notifyOpen message⟩
  | .notifyConnect _ _ _ fallbackPresence, .fail => some (Task.returned fallbackPresence)
  | .notifyOpen message, .go _ => some ⟨[.send message true], .returned true⟩
  | .notifyOpen _, .fail => some (Task.returned false)
  | .sleeping, .go _ =>
      some ⟨[.setPairingHostOpen false, .setPairingHostPersistent false, .setAccessOpen false,
        .emit .pairingHostExpired], .returned true⟩
  | .supervising, .go _ =>
      if n.shutdown then some (Task.returned true) else some ⟨[.refresh], .supervising⟩
  | .rebuilding relayMode, .go _ => some ⟨[.refresh, .setRelayMode relayMode], .returned true⟩
  | .rebuilding _, .fail => some (Task.returned false)
  | _, _ => none

end Wait

/-- `stop_pairing_host` -/
def stopPairingHost : List (Call Id) :=
  [.takeExpireTask, .setPairingHostPersistent false, .setPairingHostOpen false,
    .setAccessOpen false]

/-- `start_pairing_host` -/
def startPairingHost (ttlSecs : Option UInt64) : List (Call Id) :=
  stopPairingHost ++
    [.setPairingHostPersistent (pairingHostIsPersistent ttlSecs), .setPairingHostOpen true,
      .setAccessOpen true] ++
    (if ttlSecs.isSome then [.spawnExpireTask] else [])

/-- `forget_paired`, less the `Forget` it sends in the background. -/
def forgetPaired (endpointId : String) : List (Call Id) :=
  [.getDevice endpointId] ++
    (match (fromStr endpointId : Option Id) with
      | some id => [.disallow id]
      | none => []) ++
    [.store (.forget endpointId) .propagate] ++ managerForget endpointId ++
    [.setPresence endpointId .forgotten, .emit (.deviceUnpaired endpointId none "local")]

namespace Call

/-- Perform the first call of a task. The result is the new shared state, the
task's next state and the tasks it spawned; `fresh` is the next free handle. -/
def exec (n : Node Id) (fresh : Nat) (wait : Wait Id) (rest : List (Call Id)) :
    Call Id → Input → Option (Node Id × Task Id × List (Task Id))
  | .afterHandshake conn, .go _ =>
      if n.access.pairingHostOpen || decide (conn.remote ∈ n.access.allowed) then
        some (n, ⟨rest, wait⟩, [])
      else some (n, Task.returned false, [])
  | .readPairingHostOpen conn, .go _ =>
      some (n, ⟨.readAllowed conn n.access.pairingHostOpen :: rest, wait⟩, [])
  | .readAllowed conn pairingHostOpen, .go _ =>
      if conn.remote ∈ n.access.allowed then
        some (n, ⟨registerInbound (toStr conn.remote) conn ++ rest, .pairedExport conn⟩, [])
      else if !pairingHostOpen then some (n, Task.returned true, [])
      else some (n, ⟨rest, .acceptBi conn⟩, [])
  | .requireAllowed remote, .go _ =>
      if remote ∈ n.access.allowed then some (n, ⟨rest, wait⟩, [])
      else some (n, Task.returned false, [])
  | .send _ _, .go _ => some (n, ⟨rest, wait⟩, [])
  | .send _ must, .fail => some (n, if must then Task.returned false else ⟨rest, wait⟩, [])
  | .afterMessage, .go now =>
      match wait with
      | .pairing conn s =>
          match s.remoteInfo with
          | some info =>
              if s.remoteVote = some .remember then
                some (n, pairingCompleted conn info now n.homeRelayUrl, [])
              else some (n, ⟨rest, wait⟩, [])
          | none => some (n, ⟨rest, wait⟩, [])
      | _ => none
  | .checkInvite conn invite, .go _ =>
      match wait with
      | .pairing session s =>
          if conn.remote ∈ n.access.allowed then
            some (n, ⟨.emit (.pairedInviteReceived (toStr conn.remote) invite) :: .afterMessage ::
              rest, .pairing session { s with inviteReceived := true }⟩, [])
          else some (n, ⟨rest, wait⟩, [])
      | _ => none
  | .emit event, .go _ => some (n.emit event, ⟨rest, wait⟩, [])
  | .emitInviteResponse remote response, .go _ =>
      let displayName :=
        (PairedDeviceStore.get String.toLowercase n.file (toStr remote)).map (·.displayName)
      some (n.emit (.pairedInviteResponse (toStr remote) displayName response), ⟨rest, wait⟩, [])
  | .emitInviteResponse remote response, .fail =>
      some (n.emit (.pairedInviteResponse (toStr remote) none response), ⟨rest, wait⟩, [])
  | .store op cont, .go _ =>
      match (op.run String.toLowercase n.file).written with
      | some _ => some (n, ⟨.storeWrite op n.file cont :: rest, wait⟩, [])
      | none => some (n, cont.resume rest wait (op.run String.toLowercase n.file).reply, [])
  | .store _ cont, .fail => some (n, cont.resume rest wait (.error "read"), [])
  | .storeWrite op base cont, .go _ =>
      some ({ n with file := op.apply String.toLowercase base },
        cont.resume rest wait (op.run String.toLowercase base).reply, [])
  | .storeWrite _ _ cont, .fail => some (n, cont.resume rest wait (.error "write"), [])
  | .touchNow endpointId, .go now =>
      some (n, ⟨.store (.touch endpointId now) .ignore :: rest, wait⟩, [])
  | .rememberHost info relayUrl, .go now =>
      some (n, ⟨.store (.remember (deviceOfInfo info now relayUrl)) .propagate :: rest, wait⟩, [])
  | .getDevice _, .go _ => some (n, ⟨rest, wait⟩, [])
  | .getDevice _, .fail => some (n, Task.returned false, [])
  | .allowPeer remote, .go _ => some (n.allowPeer remote, ⟨rest, wait⟩, [])
  | .disallow remote, .go _ => some (n.disallow remote, ⟨rest, wait⟩, [])
  | .setAccessOpen isOpen, .go _ => some (n.setAccessOpen isOpen, ⟨rest, wait⟩, [])
  | .setPairingHostOpen isOpen, .go _ =>
      some ({ n with pairingHostOpen := isOpen }, ⟨rest, wait⟩, [])
  | .setPairingHostPersistent persistent, .go _ =>
      some ({ n with pairingHostPersistent := persistent }, ⟨rest, wait⟩, [])
  | .closeUnlessPersistent, .go _ =>
      if n.pairingHostPersistent then some (n, ⟨rest, wait⟩, [])
      else some (n, ⟨.setAccessOpen false :: rest, wait⟩, [])
  | .takeExpireTask, .go _ =>
      some ({ n with pairingExpireTask := none
                     aborted := n.aborted ++ n.pairingExpireTask.toList }, ⟨rest, wait⟩, [])
  | .spawnExpireTask, .go _ =>
      some (n, ⟨.putExpireTask fresh :: rest, wait⟩, [⟨[], .sleeping⟩])
  | .putExpireTask handle, .go _ =>
      some ({ n with pairingExpireTask := some handle }, ⟨rest, wait⟩, [])
  | .setPresence endpointId writer, .go _ =>
      some (n.setPresence endpointId writer.online, ⟨rest, wait⟩, [])
  | .insertSession key conn, .go _ =>
      some ({ n with sessions := Function.update n.sessions key (some conn) }, ⟨rest, wait⟩, [])
  | .notifyWaiters _, .go _ => some (n, ⟨rest, wait⟩, [])
  | .removeSession key, .go _ =>
      let removed := (n.sessions key).isSome
      some ({ n with sessions := Function.update n.sessions key none },
        ⟨(if removed then [.setPresence key .sessionRemoved] else []) ++ rest, wait⟩, [])
  | .removeConnectTask key, .go _ =>
      some ({ n with connectTasks := n.connectTasks.filter (·.1 != key)
                     aborted := n.aborted ++ (n.connectTask key).toList }, ⟨rest, wait⟩, [])
  | .refresh, .go _ =>
      some (n, ⟨.refreshTasks (n.file.filter (·.pairingStatus.isConnectable)) :: rest, wait⟩, [])
  | .refresh, .fail => some (n, ⟨rest, wait⟩, [])
  | .refreshTasks active, .go _ =>
      let (n', spawned) := n.refreshTasks fresh active
      some (n', ⟨rest, wait⟩,
        spawned.map fun d => ⟨[.deviceStillActive d.endpointId d.relayUrl], .returned true⟩)
  | .deviceStillActive endpointId relayUrl, .go _ =>
      let active :=
        (PairedDeviceStore.get String.toLowercase n.file endpointId).any (·.pairingStatus.isActive)
      if !n.shutdown && active then some (n, ⟨rest, .connecting endpointId relayUrl⟩, [])
      else some (n, Task.returned true, [])
  | .deviceStillActive _ _, .fail => some (n, Task.returned true, [])
  | .checkRelayMode relayMode, .go _ =>
      if n.relayMode = relayMode then some (n, Task.returned true, [])
      else some (n, ⟨rest, wait⟩, [])
  | .setRelayMode relayMode, .go _ =>
      some ({ n with relayMode := relayMode }, ⟨rest, wait⟩, [])
  | .setHomeRelayUrl url, .go _ =>
      some ({ n with homeRelayUrl := some url }, ⟨rest, wait⟩, [])
  | .managerShutdown, .go _ =>
      some ({ n with shutdown := true
                     connectTasks := []
                     aborted := n.aborted ++ n.connectTasks.map (·.2) }, ⟨rest, wait⟩, [])
  | .clearSessions, .go _ => some ({ n with sessions := fun _ => none }, ⟨rest, wait⟩, [])
  | _, _ => none

/-- Calls that are an `await`, where an `abort` can take effect. -/
def isAwait : Call Id → Bool
  | .setAccessOpen _ | .insertSession _ _ | .removeSession _ | .notifyWaiters _ => true
  | _ => false

end Call

namespace Task

def atAwait (task : Task Id) : Bool := task.todo.head?.all Call.isAwait

/-- One turn of a task. -/
def turn (n : Node Id) (self fresh : Nat) (task : Task Id) (input : Input) :
    Option (Node Id × Task Id × List (Task Id)) :=
  if input = .cancelled then
    if n.aborted.contains self && task.atAwait then some (n, Task.returned false, []) else none
  else
    match task.todo with
    | [] => (task.wait.resume n input).map fun next => (n, next, [])
    | call :: rest => call.exec n fresh task.wait rest input

end Task

/-- What the outside can start on a running node. A ticket is what `decode`
returned, and a new name what `normalize_display_name` returned. -/
inductive Command (Id : Type) where
  | inbound (conn : Connection Id)
  | joinPairing (ticket : Option PairingTicket)
  | forgetPaired (endpointId : String)
  | renamePaired (endpointId displayName : String)
  | startPairingHost (ttlSecs : Option UInt64)
  | stopPairingHost
  | reconfigureRelay (relayMode : String)
  | invitePairedDevice (endpointId : String) (invite : Invite)
  | respondPairedInvite (endpointId : String) (response : InviteResponse)
  | networkReady (url : Option String)
  | shutdown

namespace Command

/-- `invite_paired_device` and `respond_paired_invite` up to the wait for a
connection. -/
def notify (endpointId : String) (message : ControlMessage) (fallbackPresence : Bool) : Task Id :=
  match (fromStr endpointId : Option Id) with
  | none => Task.returned false
  | some remote =>
      ⟨[.requireAllowed remote, .getDevice endpointId],
        .notifyWait remote endpointId message fallbackPresence⟩

def start : Command Id → Task Id
  | .inbound conn => ⟨[.afterHandshake conn, .readPairingHostOpen conn], .returned true⟩
  | .joinPairing ticket =>
      match ticket with
      | none => Task.returned false
      | some ticket =>
          match (fromStr ticket.endpointId : Option Id) with
          | none => Task.returned false
          | some remote => ⟨[], .joinConnect remote ticket.relayUrl⟩
  | .forgetPaired endpointId => ⟨AltSendme.forgetPaired endpointId, .returned true⟩
  | .renamePaired endpointId displayName =>
      ⟨[.store (.rename endpointId displayName) .propagate], .returned true⟩
  | .startPairingHost ttlSecs => ⟨AltSendme.startPairingHost ttlSecs, .returned true⟩
  | .stopPairingHost => ⟨AltSendme.stopPairingHost, .returned true⟩
  | .reconfigureRelay relayMode =>
      ⟨.checkRelayMode relayMode :: AltSendme.stopPairingHost ++
        [.emit .deviceNodeNetworkWarming], .rebuilding relayMode⟩
  | .invitePairedDevice endpointId invite => notify endpointId (.invite invite) true
  | .respondPairedInvite endpointId response =>
      notify endpointId (.inviteResponse "" response) false
  | .networkReady url =>
      ⟨(url.map Call.setHomeRelayUrl).toList ++ [.emit .deviceNodeNetworkReady], .returned true⟩
  | .shutdown =>
      ⟨AltSendme.stopPairingHost ++ [.managerShutdown, .clearSessions], .returned true⟩

end Command

/-- The process ends, with whatever its tasks were doing, and `NodeService::start`
runs on the same data directory. -/
structure Restart (Id : Type) where
  identity : DeviceIdentity Id
  identityRotated : Bool
  relayMode : String

namespace Restart

/-- A start whose identity file was found as it was left. -/
def onIdentity (identity : DeviceIdentity Id) : Restart Id := ⟨identity, false, "default"⟩

/-- The allowlist is loaded before records are marked stale. -/
def node (restart : Restart Id) (file : List PairedDevice) : Node Id where
  identity := restart.identity
  file := if restart.identityRotated then
      PairedDeviceStore.markStaleAfterLocalIdentityRotation file
    else file
  access := ⟨loadAllowedFromStore file, false⟩
  pairingHostOpen := false
  pairingHostPersistent := false
  pairingExpireTask := none
  homeRelayUrl := none
  presence := fun _ => none
  sessions := fun _ => none
  connectTasks := []
  aborted := []
  shutdown := false
  relayMode := restart.relayMode
  events := []

end Restart

/-- The node as a pool of tasks over its shared state. -/
def nodePool : Execution.Pool (Node Id) (Task Id) Input (Command Id) (Restart Id) where
  turn := Task.turn
  start := Command.start
  restart := fun restart n => (restart.node n.file, [⟨[.refresh], .supervising⟩])

abbrev NodeConfig (Id : Type) := Execution.Pool.Config (Node Id) (Task Id)

abbrev NodeLabel (Id : Type) := Execution.Pool.Label Input (Command Id) (Restart Id)

/-- One step of a node: a command, a turn of one of its tasks, or a restart. -/
def step : NodeConfig Id → NodeLabel Id → Option (NodeConfig Id) := nodePool.next

/-- A node right after `NodeService::start` on a data directory whose
paired-device file holds `file`. -/
def started (restart : Restart Id) (file : List PairedDevice) : NodeConfig Id :=
  ⟨restart.node file, [⟨[.refresh], .supervising⟩]⟩

/-- The call a task performs at its next turn, if it is not awaiting. -/
def nextCall (c : NodeConfig Id) (t : Nat) : Option (Call Id) :=
  c.tasks[t]?.bind (·.todo.head?)

/-- A task goes on `k` times, with nothing but success. -/
def goes (t k : Nat) : List (NodeLabel Id) := List.replicate k (.turn t (.go 0))

end AltSendme
