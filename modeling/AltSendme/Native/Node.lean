import AltSendme.Native.DeviceStore
import AltSendme.Protocol.PairingAuth
import Mathlib.Data.Finset.Basic
import Mathlib.Data.Finset.Insert

/-! The state that the tasks of a node share: the access state, the pairing
window flags, the paired-device file and the tables of
`PairedConnectionManager`. A UI is attached, so every emitted event is kept. -/
namespace AltSendme

/-- A control connection. `id` tells connections apart, `remote` is the id the
TLS handshake authenticated, `keying` the exported keying material and
`sessionId` the uuid drawn for its session. -/
structure Connection (Id : Type) where
  id : Nat
  remote : Id
  keying : List UInt8
  sessionId : String
  deriving DecidableEq

structure AccessState (Id : Type) where
  allowed : Finset Id
  pairingHostOpen : Bool

structure DeviceIdentity (Id : Type) where
  id : Id
  displayName : String
  deviceType : String
  os : String

/-- Events for the frontend, with their payloads. -/
inductive NodeEvent where
  | pairedInviteReceived (remoteEndpointId : String) (invite : Invite)
  | pairedInviteResponse (endpointId : String) (displayName : Option String)
      (response : InviteResponse)
  | devicePaired
  | deviceUnpaired (endpointId : String) (displayName : Option String) (reason : String)
  | pairedDevicePresence (endpointId : String) (online : Bool) (lastSeenAt : UInt64)
  | pairingHostExpired
  | deviceNodeNetworkWarming
  | deviceNodeNetworkReady
  deriving DecidableEq, Repr

/-- The remote whose invite, or answer to an invite, the event reports. -/
def NodeEvent.inviteFrom : NodeEvent → Option String
  | .pairedInviteReceived remoteEndpointId _ => some remoteEndpointId
  | .pairedInviteResponse endpointId _ _ => some endpointId
  | _ => none

structure Node (Id : Type) where
  identity : DeviceIdentity Id
  /-- What `read_file` returns for `paired-devices.json`. -/
  file : List PairedDevice
  access : AccessState Id
  pairingHostOpen : Bool
  pairingHostPersistent : Bool
  pairingExpireTask : Option Nat
  homeRelayUrl : Option String
  presence : String → Option Bool
  sessions : String → Option (Connection Id)
  /-- `PairedConnectionManager::tasks`: the connect loop handle of each key. -/
  connectTasks : List (String × Nat)
  /-- Handles on which `abort` was called. -/
  aborted : List Nat
  shutdown : Bool
  relayMode : String
  events : List NodeEvent

namespace Node
variable {Id : Type}

def emit (n : Node Id) (event : NodeEvent) : Node Id :=
  { n with events := n.events ++ [event] }

def allowPeer [DecidableEq Id] (n : Node Id) (remote : Id) : Node Id :=
  { n with access := { n.access with allowed := insert remote n.access.allowed } }

def disallow [DecidableEq Id] (n : Node Id) (remote : Id) : Node Id :=
  { n with access := { n.access with allowed := n.access.allowed.erase remote } }

def setAccessOpen (n : Node Id) (open' : Bool) : Node Id :=
  { n with access := { n.access with pairingHostOpen := open' } }

/-- `set_presence`: only a change is stored and reported. -/
def setPresence (n : Node Id) (endpointId : String) (online : Bool) : Node Id :=
  let key := endpointId.toLowercase
  if n.presence key = some online then n
  else
    let lastSeenAt :=
      ((PairedDeviceStore.get String.toLowercase n.file endpointId).map (·.lastSeenAt)).getD 0
    { n with
      presence := Function.update n.presence key (some online)
      events := n.events ++ [.pairedDevicePresence endpointId online lastSeenAt] }

/-- What `list_paired` says of the device: the entry of its key, or of the id
as it is written, and offline where there is none. -/
def isOnline (n : Node Id) (endpointId : String) : Bool :=
  ((n.presence endpointId.toLowercase).or (n.presence endpointId)).getD false

def connectTask (n : Node Id) (key : String) : Option Nat := n.connectTasks.lookup key

/-- One device of `refresh`: a loop is spawned unless its key has one. The
loops spawned so far decide the next handle. -/
def spawnConnectTask (fresh : Nat) (acc : List (String × Nat) × List PairedDevice)
    (d : PairedDevice) : List (String × Nat) × List PairedDevice :=
  let key := d.endpointId.toLowercase
  if (acc.1.lookup key).isSome then acc
  else (acc.1 ++ [(key, fresh + acc.2.length)], acc.2 ++ [d])

/-- The part of `refresh` under the `tasks` lock. Loops whose device is no
longer connectable are aborted and dropped, and each device without an entry
gets a new loop, whose handles count up from `fresh`. -/
def refreshTasks (n : Node Id) (fresh : Nat) (active : List PairedDevice) :
    Node Id × List PairedDevice :=
  let activeIds := active.map (·.endpointId.toLowercase)
  let kept := n.connectTasks.filter fun entry => activeIds.contains entry.1
  let dropped := n.connectTasks.filter fun entry => !activeIds.contains entry.1
  let (tasks, spawned) := active.foldl (spawnConnectTask fresh) (kept, [])
  ({ n with connectTasks := tasks, aborted := n.aborted ++ dropped.map (·.2) }, spawned)

/-- Presence is written beside the gate. -/
@[simp] theorem setPresence_access (n : Node Id) (endpointId : String) (online : Bool) :
    (n.setPresence endpointId online).access = n.access := by
  unfold setPresence
  dsimp only
  split <;> rfl

/-- Presence is never stored. -/
@[simp] theorem setPresence_file (n : Node Id) (endpointId : String) (online : Bool) :
    (n.setPresence endpointId online).file = n.file := by
  unfold setPresence
  dsimp only
  split <;> rfl

/-- Presence is written beside the session table. -/
@[simp] theorem setPresence_sessions (n : Node Id) (endpointId : String) (online : Bool) :
    (n.setPresence endpointId online).sessions = n.sessions := by
  unfold setPresence
  dsimp only
  split <;> rfl

@[simp] theorem setPresence_connectTasks (n : Node Id) (endpointId : String) (online : Bool) :
    (n.setPresence endpointId online).connectTasks = n.connectTasks := by
  unfold setPresence
  dsimp only
  split <;> rfl

@[simp] theorem setPresence_aborted (n : Node Id) (endpointId : String) (online : Bool) :
    (n.setPresence endpointId online).aborted = n.aborted := by
  unfold setPresence
  dsimp only
  split <;> rfl

@[simp] theorem setPresence_pairingExpireTask (n : Node Id) (endpointId : String)
    (online : Bool) :
    (n.setPresence endpointId online).pairingExpireTask = n.pairingExpireTask := by
  unfold setPresence
  dsimp only
  split <;> rfl

@[simp] theorem setPresence_pairingHostPersistent (n : Node Id) (endpointId : String)
    (online : Bool) :
    (n.setPresence endpointId online).pairingHostPersistent = n.pairingHostPersistent := by
  unfold setPresence
  dsimp only
  split <;> rfl

/-- A presence change is not an invite event. -/
theorem setPresence_events (n : Node Id) (endpointId : String) (online : Bool) :
    (n.setPresence endpointId online).events = n.events ∨
      ∃ lastSeenAt, (n.setPresence endpointId online).events =
        n.events ++ [.pairedDevicePresence endpointId online lastSeenAt] := by
  unfold setPresence
  dsimp only
  split
  · exact Or.inl rfl
  · exact Or.inr ⟨_, rfl⟩

end Node

variable {Id : Type} [DecidableEq Id] [EndpointKeys Id]

def loadAllowedFromStore (file : List PairedDevice) : Finset Id :=
  (file.filterMap fun d =>
    if d.pairingStatus.isConnectable then EndpointKeys.fromStr d.endpointId else none).toFinset

end AltSendme
