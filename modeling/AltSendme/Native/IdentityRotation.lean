import AltSendme.Execution.Run
import AltSendme.Native.IdentityStore
import AltSendme.Native.StoreRecords
import AltSendme.Native.Node
import AltSendme.Protocol.HexKeys

/-! A node that comes up with another identity than the last time. The start
rewrites `device.json` first and marks the paired devices stale afterwards; the
process may end, or a write fail, anywhere in between. -/
namespace AltSendme
open Execution

structure DeviceMetaFile where
  version : UInt32
  endpointId : String
  displayName : String
  deviceType : String
  os : String
  createdAt : UInt64
  nameIsCustom : Bool
  deriving DecidableEq, Repr

/-- What this machine says of itself. -/
structure Detected where
  os : String
  displayName : String
  deviceType : String
  unixNowMs : UInt64
  deriving DecidableEq, Repr

namespace DeviceMetaFile

def new (here : Detected) (endpointId displayName deviceType : String) : DeviceMetaFile :=
  ⟨2, endpointId, displayName, deviceType, here.os, here.unixNowMs, false⟩

def migrate (here : Detected) (m : DeviceMetaFile) : DeviceMetaFile :=
  { m with
    os := if trim m.os = "" then here.os else m.os
    deviceType := if trim m.deviceType = "" then here.deviceType else m.deviceType
    version := if m.version < 2 then 2 else m.version }

@[simp] theorem migrate_endpointId (here : Detected) (m : DeviceMetaFile) :
    (m.migrate here).endpointId = m.endpointId := rfl

end DeviceMetaFile

def isPlaceholderDisplayName (name : String) : Bool :=
  let trimmed := trim name
  trimmed == "" || ["altsendme", "altsendme device", "android phone", "android tablet"].contains
    trimmed.toLowercase

/-- What a name may be: at most `MAX_DISPLAY_NAME_CHARS` characters once trimmed. -/
def normalizeDisplayName (name : String) : Except String String :=
  let trimmed := trim name
  if trimmed = "" then .error "Device name cannot be empty"
  else if trimmed.length > 64 then .error "Device name must be at most 64 characters"
  else .ok trimmed

/-- What a load brings up to date in a record that was there: a name the user
did not choose, a missing os, the form factor. -/
def DeviceMetaFile.refresh (here : Detected) (m : DeviceMetaFile) : DeviceMetaFile :=
  let m := m.migrate here
  { m with
    displayName := if !m.nameIsCustom && isPlaceholderDisplayName m.displayName then
      here.displayName else m.displayName
    os := if trim m.os = "" then here.os else m.os
    deviceType := here.deviceType }

@[simp] theorem DeviceMetaFile.refresh_endpointId (here : Detected) (m : DeviceMetaFile) :
    (m.refresh here).endpointId = m.endpointId := rfl

/-- A file that holds JSON, as its parser sees it. -/
inductive JsonFile (Content : Type) where
  | missing
  | malformed
  | parsed (content : Content)
  deriving DecidableEq, Repr

/-- What outlives the process. -/
structure DataDir where
  keys : KeyDisk
  deviceJson : JsonFile DeviceMetaFile
  pairedDevices : JsonFile (List PairedDevice)

namespace DataDir

/-- `read_file` of the paired device store, when the read itself succeeds. -/
def devices (dir : DataDir) : List PairedDevice :=
  match dir.pairedDevices with
  | .parsed devices => devices
  | _ => []

/-- The devices of a directory are those of its list file. -/
theorem devices_congr {dir dir' : DataDir} (h : dir'.pairedDevices = dir.pairedDevices) :
    dir'.devices = dir.devices := by
  rw [devices, devices, h]

end DataDir

/-- Everything one start is answered with from outside. -/
structure StartAnswers where
  secret : SecretAnswers
  here : Detected
  metaRead : Bool
  metaWrite : FileWrite
  listRead : Bool
  staleRead : Bool
  staleWrite : FileWrite
  runtimeBuilt : Bool

/-- The `DeviceIdentity` of `device_identity.rs`. -/
structure LoadedIdentity where
  secretKey : SecretKey
  metaFile : DeviceMetaFile
  identityRotated : Bool
  previousEndpointId : Option String

inductive StartError where
  | secret (e : SecretError)
  | io (context : String)
  | invalidDeviceJson
  | runtime
  | crashed
  deriving DecidableEq, Repr

section
variable {Id : Type} [DecidableEq Id] [EndpointKeys Id]
variable (android : Bool) (publicKey : SecretKey → Id)

def writeMeta (dir : DataDir) (write : FileWrite) (metaFile : DeviceMetaFile) :
    DataDir × Except StartError Unit :=
  match write with
  | .done => ({ dir with deviceJson := .parsed metaFile }, .ok ())
  | .failed => (dir, .error (.io "device.json"))
  | .crashed true => ({ dir with deviceJson := .parsed metaFile }, .error .crashed)
  | .crashed false => (dir, .error .crashed)

/-- The record this start will write, and whose it was before. -/
def loadMeta (a : StartAnswers) (dir : DataDir) (endpointId : String) :
    Except StartError (DeviceMetaFile × Option String) :=
  match dir.deviceJson with
  | .missing =>
      .ok (.new a.here endpointId a.here.displayName a.here.deviceType, none)
  | .malformed => if a.metaRead then .error .invalidDeviceJson else .error (.io "device.json")
  | .parsed m =>
      if a.metaRead then
        if m.endpointId.toLowercase ≠ endpointId then
          .ok ({ m with endpointId := endpointId }.refresh a.here, some m.endpointId)
        else .ok (m.refresh a.here, none)
      else .error (.io "device.json")

def loadOrCreateIdentity (a : StartAnswers) (dir : DataDir) :
    DataDir × Except StartError LoadedIdentity :=
  let load := loadOrCreateSecret android a.secret dir.keys
  let dir := { dir with keys := load.disk }
  match load.result with
  | .error e => (dir, .error (.secret e))
  | .ok outcome =>
      match loadMeta a dir (EndpointKeys.toStr (publicKey outcome.secret)) with
      | .error e => (dir, .error e)
      | .ok (m, previous) =>
          let m := m.migrate a.here
          match writeMeta dir a.metaWrite m with
          | (dir, .error e) => (dir, .error e)
          | (dir, .ok ()) => (dir, .ok ⟨outcome.secret, m, previous.isSome, previous⟩)

/-- `mark_stale_after_local_identity_rotation`, with the number it returns. -/
def markStale (a : StartAnswers) (dir : DataDir) : DataDir × Except StartError Nat :=
  if a.staleRead then
    let updated := dir.devices.countP (·.pairingStatus = .active)
    let file := PairedDeviceStore.markStaleAfterLocalIdentityRotation dir.devices
    if updated > 0 then
      match a.staleWrite with
      | .done => ({ dir with pairedDevices := .parsed file }, .ok updated)
      | .failed => (dir, .error (.io "paired-devices.json"))
      | .crashed true => ({ dir with pairedDevices := .parsed file }, .error .crashed)
      | .crashed false => (dir, .error .crashed)
    else (dir, .ok 0)
  else (dir, .error (.io "paired-devices.json"))

/-- The payload of `identity-rotated`. -/
structure IdentityRotated where
  previousEndpointId : Option String
  currentEndpointId : String
  staleDeviceCount : Nat
  deriving DecidableEq, Repr

structure StartedNode (Id : Type) where
  identity : LoadedIdentity
  allowed : Finset Id
  emitted : Option IdentityRotated

/-- The rest of a start once the devices are marked. A failure to mark them
counts as none marked. -/
def serveNode (a : StartAnswers) (identity : LoadedIdentity) (allowed : Finset Id)
    (marked : Except StartError Nat) : Except StartError (StartedNode Id) :=
  match marked with
  | .error .crashed => .error .crashed
  | marked =>
      let staleCount := marked.toOption.getD 0
      let emitted := if staleCount > 0 then
        some ⟨identity.previousEndpointId,
          EndpointKeys.toStr (publicKey identity.secretKey), staleCount⟩ else none
      if a.runtimeBuilt then .ok ⟨identity, allowed, emitted⟩ else .error .runtime

/-- `NodeService::start`. -/
def startNode (a : StartAnswers) (dir : DataDir) :
    DataDir × Except StartError (StartedNode Id) :=
  match loadOrCreateIdentity android publicKey a dir with
  | (dir, .error e) => (dir, .error e)
  | (dir, .ok identity) =>
      if a.listRead then
        let allowed : Finset Id := loadAllowedFromStore dir.devices
        let marked := if identity.identityRotated then markStale a dir else (dir, .ok 0)
        (marked.1, serveNode publicKey a identity allowed marked.2)
      else (dir, .error (.io "paired-devices.json"))

/-! Restarts of one installation. -/

/-- `inFlight` are the lists that store calls of the running process have read
and not yet written back. `remembered` is the history of pairings: the device
and the local endpoint id it was remembered under, also when it is forgotten later. -/
structure Installation where
  dir : DataDir
  running : Option LoadedIdentity
  inFlight : List (List PairedDevice)
  remembered : List (String × String)

inductive InstallationStep where
  | start (a : StartAnswers)
  | storeRead
  | storeWrite (call : Nat) (op : StoreOp) (write : FileWrite)
  | setDisplayName (normalized : String) (here : Detected) (write : FileWrite)
  | exit

namespace Installation

/-- The process is gone; only the directory stays. -/
def dead (i : Installation) : Installation := { i with running := none, inFlight := [] }

/-- What a store call that reached the file does to the history. -/
def recordPairing (local' : String) (remembered : List (String × String)) :
    StoreOp → List (String × String)
  | .remember device => (device.endpointId.toLowercase, local') :: remembered
  | _ => remembered

def replaceFile (i : Installation) (local' : String) (op : StoreOp) (file : List PairedDevice) :
    Installation :=
  { i with
    dir := { i.dir with pairedDevices := .parsed file }
    remembered := recordPairing local' i.remembered op }

/-- One access to the data directory. A start runs to its end or to where the
process ends; other calls write back a list that was read at any earlier time
of the same process. -/
def next (i : Installation) : InstallationStep → Option Installation
  | .start a =>
      match i.running with
      | some _ => none
      | none =>
          match startNode android publicKey a i.dir with
          | (dir, .ok node) => some { i with dir := dir, running := some node.identity }
          | (dir, .error _) => some { i with dir := dir }
  | .storeRead =>
      match i.running with
      | none => none
      | some _ => some { i with inFlight := i.inFlight ++ [i.dir.devices] }
  | .storeWrite call op write => do
      let identity ← i.running
      let base ← i.inFlight[call]?
      let local' := EndpointKeys.toStr (publicKey identity.secretKey)
      let done := { i with inFlight := i.inFlight.eraseIdx call }
      match (op.run String.toLowercase base).written, write with
      | none, _ => some done
      | some _, .failed => some done
      | some file, .done => some (done.replaceFile local' op file)
      | some _, .crashed false => some i.dead
      | some file, .crashed true => some (i.replaceFile local' op file).dead
  | .setDisplayName normalized here write => do
      let identity ← i.running
      let m := { identity.metaFile with displayName := normalized, nameIsCustom := true }.migrate here
      let changed := { i with running := some { identity with metaFile := m } }
      match write with
      | .done => some { changed with dir := { i.dir with deviceJson := .parsed m } }
      | .failed => some changed
      | .crashed false => some i.dead
      | .crashed true => some { i with dir := { i.dir with deviceJson := .parsed m } }.dead
  | .exit =>
      match i.running with
      | none => none
      | some _ => some i.dead

/-- A directory in which no device was ever paired. -/
def fresh (keys : KeyDisk) (deviceJson : JsonFile DeviceMetaFile) : Installation :=
  ⟨⟨keys, deviceJson, .missing⟩, none, [], []⟩

end Installation

namespace FileWrite

/-- The new content is there afterwards. -/
def Replaces (write : FileWrite) : Prop := write = .done ∨ write = .crashed true

instance (write : FileWrite) : Decidable write.Replaces := inferInstanceAs (Decidable (_ ∨ _))

end FileWrite

/-- The start finds `device.json` under another id than its own. -/
def StartAnswers.rotates (a : StartAnswers) (dir : DataDir) : Bool :=
  match (loadOrCreateSecret android a.secret dir.keys).result, dir.deviceJson with
  | .ok outcome, .parsed m =>
      m.endpointId.toLowercase != EndpointKeys.toStr (publicKey outcome.secret)
  | _, _ => false

/-- Once the new id is in `device.json`, the start gets to the devices and
replaces their file. -/
def StartAnswers.Finishes (a : StartAnswers) : Prop :=
  a.metaWrite = .done ∧ a.listRead = true ∧ a.staleRead = true ∧ a.staleWrite.Replaces

instance (a : StartAnswers) : Decidable a.Finishes := inferInstanceAs (Decidable (_ ∧ _))

/-- A start that replaces the id under which some stored device is active does
not stop between the two files. -/
def RotatesWhole (i : Installation) : InstallationStep → Prop
  | .start a =>
      a.rotates android publicKey i.dir = true → a.metaRead = true → a.metaWrite.Replaces →
        (∃ d ∈ i.dir.devices, d.pairingStatus = .active) → a.Finishes
  | _ => True

instance (i : Installation) (step : InstallationStep) :
    Decidable (RotatesWhole android publicKey i step) := by
  cases step <;> unfold RotatesWhole <;> infer_instance

/-- No stored device that was remembered, but only under other ids than
`local'`, is active. -/
def NoneForeign (i : Installation) (local' : String) : Prop :=
  ∀ d ∈ i.dir.devices, (∃ other, (d.endpointId.toLowercase, other) ∈ i.remembered) →
    (d.endpointId.toLowercase, local') ∉ i.remembered → d.pairingStatus ≠ .active

/-- The device was remembered under `local'`, or never in the run. -/
def Owned (remembered : List (String × String)) (local' key : String) : Prop :=
  (key, local') ∈ remembered ∨ ∀ other, (key, other) ∉ remembered

/-- Every active device of the list is owned by `owner`, which there must be. -/
def ActiveOwned (remembered : List (String × String)) (owner : Option String)
    (devices : List PairedDevice) : Prop :=
  ∀ d ∈ devices, d.pairingStatus = .active →
    ∃ local', owner = some local' ∧ Owned remembered local' d.endpointId.toLowercase

/-- The id in `device.json`. -/
def DataDir.owner (dir : DataDir) : Option String :=
  match dir.deviceJson with
  | .parsed m => some m.endpointId.toLowercase
  | _ => none

/-- What holds between two accesses. -/
structure Consistent (i : Installation) : Prop where
  onDisk : ActiveOwned i.remembered i.dir.owner i.dir.devices
  inMemory : ∀ identity, i.running = some identity →
    identity.metaFile.endpointId.toLowercase = EndpointKeys.toStr (publicKey identity.secretKey) ∧
    i.dir.owner = some (EndpointKeys.toStr (publicKey identity.secretKey))
  inFlight : ∀ devices ∈ i.inFlight, ActiveOwned i.remembered i.dir.owner devices
  idle : i.running = none → i.inFlight = []

omit [DecidableEq Id] [EndpointKeys Id] in
/-- A list without active records owes nobody anything. -/
theorem ActiveOwned.of_none {remembered : List (String × String)} {owner : Option String}
    {devices : List PairedDevice} (h : ∀ d ∈ devices, d.pairingStatus ≠ .active) :
    ActiveOwned remembered owner devices :=
  fun d hd hActive => absurd hActive (h d hd)

/-- Every record after a change is an old one or the change of an old one. -/
theorem mem_modify {endpointId : String} {change : PairedDevice → PairedDevice}
    {devices : List PairedDevice} {d : PairedDevice}
    (h : d ∈ PairedDeviceStore.modify String.toLowercase endpointId change devices) :
    d ∈ devices ∨ ∃ old ∈ devices, old.endpointId.toLowercase = endpointId.toLowercase ∧
      d = change old := by
  induction devices with
  | nil => exact Or.inl h
  | cons first rest ih =>
      rw [PairedDeviceStore.modify, List.replaceF] at h
      cases hSame : PairedDeviceStore.sameId String.toLowercase endpointId first with
      | false =>
          simp only [hSame] at h
          rcases List.mem_cons.mp h with rfl | hRest
          · exact Or.inl List.mem_cons_self
          · rcases ih hRest with hOld | ⟨old, hOld, hId, rfl⟩
            · exact Or.inl (List.mem_cons_of_mem _ hOld)
            · exact Or.inr ⟨old, List.mem_cons_of_mem _ hOld, hId, rfl⟩
      | true =>
          simp only [hSame] at h
          rcases List.mem_cons.mp h with rfl | hRest
          · exact Or.inr ⟨first, List.mem_cons_self, PairedDeviceStore.sameId_iff.mp hSame, rfl⟩
          · exact Or.inl (List.mem_cons_of_mem _ hRest)

/-- One more pairing takes no record from its owner. -/
theorem Owned.cons {remembered : List (String × String)} {local' key : String} (added : String)
    (h : Owned remembered local' key) : Owned ((added, local') :: remembered) local' key := by
  rcases h with hOwn | hNone
  · exact Or.inl (List.mem_cons_of_mem _ hOwn)
  · by_cases hKey : key = added
    · exact Or.inl (hKey ▸ List.mem_cons_self)
    · refine Or.inr fun other hMem => ?_
      rcases List.mem_cons.mp hMem with hEq | hOld
      · exact hKey (Prod.mk.inj hEq).1
      · exact hNone other hOld

/-- Recording a call takes no record from its owner. -/
theorem Owned.record {remembered : List (String × String)} {local' key : String} (op : StoreOp)
    (h : Owned remembered local' key) :
    Owned (Installation.recordPairing local' remembered op) local' key := by
  cases op with
  | remember device => exact h.cons _
  | forget endpointId => exact h
  | rename endpointId displayName => exact h
  | touch endpointId lastSeenAt => exact h
  | markUnpairedRemotely endpointId => exact h

/-- A change that keeps ids and statuses makes no record active. -/
theorem active_of_modify {endpointId : String} {change : PairedDevice → PairedDevice}
    {base : List PairedDevice} {d : PairedDevice}
    (hd : d ∈ PairedDeviceStore.modify String.toLowercase endpointId change base)
    (hActive : d.pairingStatus = .active)
    (hKeeps : ∀ old, (change old).pairingStatus = old.pairingStatus ∧
      (change old).endpointId = old.endpointId) :
    ∃ old ∈ base, old.pairingStatus = .active ∧ d.endpointId = old.endpointId := by
  rcases mem_modify hd with hOld | ⟨old, hOld, _, rfl⟩
  · exact ⟨d, hOld, hActive, rfl⟩
  · exact ⟨old, hOld, (hKeeps old).1.symm.trans hActive, (hKeeps old).2⟩

/-- Where a record of the written list comes from: one of the base list that
was active already, if it is active now, or the device just remembered. -/
theorem written_active {base file : List PairedDevice} {op : StoreOp} {d : PairedDevice}
    (hFile : (op.run String.toLowercase base).written = some file) (hd : d ∈ file)
    (hActive : d.pairingStatus = .active) :
    (∃ old ∈ base, old.pairingStatus = .active ∧ d.endpointId = old.endpointId) ∨
      ∃ device, op = .remember device ∧
        d.endpointId.toLowercase = device.endpointId.toLowercase := by
  cases op with
  | remember device =>
      obtain rfl := Option.some.inj hFile
      cases hGet : PairedDeviceStore.get String.toLowercase base device.endpointId with
      | some known =>
          simp only [PairedDeviceStore.remember, hGet] at hd
          rcases mem_modify hd with hOld | ⟨old, _, hId, rfl⟩
          · exact Or.inl ⟨d, hOld, hActive, rfl⟩
          · exact Or.inr ⟨device, rfl, hId⟩
      | none =>
          simp only [PairedDeviceStore.remember, hGet] at hd
          rcases List.mem_append.mp hd with hOld | hNew
          · exact Or.inl ⟨d, hOld, hActive, rfl⟩
          · exact Or.inr ⟨device, rfl, by rw [List.mem_singleton.mp hNew]⟩
  | forget endpointId =>
      obtain rfl := Option.some.inj hFile
      exact Or.inl ⟨d, (List.mem_filter.mp hd).1, hActive, rfl⟩
  | rename endpointId displayName =>
      cases hGet : PairedDeviceStore.get String.toLowercase base endpointId with
      | none => simp [StoreOp.run, hGet] at hFile
      | some known =>
          simp only [StoreOp.run, hGet, Option.some.injEq] at hFile
          subst hFile
          exact Or.inl (active_of_modify hd hActive fun _ => ⟨rfl, rfl⟩)
  | touch endpointId lastSeenAt =>
      cases hGet : PairedDeviceStore.get String.toLowercase base endpointId with
      | none => simp [StoreOp.run, hGet] at hFile
      | some known =>
          simp only [StoreOp.run, hGet, Option.some.injEq] at hFile
          subst hFile
          exact Or.inl (active_of_modify hd hActive fun _ => ⟨rfl, rfl⟩)
  | markUnpairedRemotely endpointId =>
      cases hGet : PairedDeviceStore.get String.toLowercase base endpointId with
      | none => simp [StoreOp.run, hGet] at hFile
      | some known =>
          simp only [StoreOp.run, hGet, Option.some.injEq] at hFile
          subst hFile
          rcases mem_modify hd with hOld | ⟨old, _, _, rfl⟩
          · exact Or.inl ⟨d, hOld, hActive, rfl⟩
          · cases hActive

/-- A store call that reaches the file keeps its active devices owned by the
process that made it. -/
theorem ActiveOwned.store {remembered : List (String × String)} {local' : String}
    {base file : List PairedDevice} {op : StoreOp}
    (hBase : ActiveOwned remembered (some local') base)
    (hFile : (op.run String.toLowercase base).written = some file) :
    ActiveOwned (Installation.recordPairing local' remembered op) (some local') file := by
  intro d hd hActive
  refine ⟨local', rfl, ?_⟩
  rcases written_active hFile hd hActive with ⟨old, hOld, hWas, hId⟩ | ⟨device, rfl, hId⟩
  · obtain ⟨_, hOwner, hOwned⟩ := hBase old hOld hWas
    rw [hId, Option.some.inj hOwner]
    exact hOwned.record op
  · rw [hId]
    exact Or.inl List.mem_cons_self

/-- Recording a call leaves every active record owned. -/
theorem ActiveOwned.record {remembered : List (String × String)} {local' : String}
    {devices : List PairedDevice} (op : StoreOp)
    (h : ActiveOwned remembered (some local') devices) :
    ActiveOwned (Installation.recordPairing local' remembered op) (some local') devices := by
  intro d hd hActive
  obtain ⟨_, hOwner, hOwned⟩ := h d hd hActive
  exact ⟨local', rfl, (Option.some.inj hOwner ▸ hOwned).record op⟩

/-- After a rotation was recorded there is no active device left. -/
theorem not_active_markStale (devices : List PairedDevice) :
    ∀ d ∈ PairedDeviceStore.markStaleAfterLocalIdentityRotation devices,
      d.pairingStatus ≠ .active := by
  intro d hd
  obtain ⟨old, _, rfl⟩ := List.mem_map.mp hd
  unfold PairedDeviceStore.markStale
  split
  · exact PairingStatus.noConfusion
  · assumption

/-! What a start does. -/

section
variable {a : StartAnswers} {dir dir' : DataDir}

/-- The record to be written carries this start's id. -/
theorem loadMeta_ok {endpointId : String} {m : DeviceMetaFile} {previous : Option String}
    (hLower : endpointId.toLowercase = endpointId)
    (h : loadMeta a dir endpointId = .ok (m, previous)) :
    m.endpointId.toLowercase = endpointId ∧
      (dir.deviceJson = .missing ∧ previous = none ∨
        ∃ old, dir.deviceJson = .parsed old ∧ a.metaRead = true ∧
          (previous.isSome = true ↔ old.endpointId.toLowercase ≠ endpointId)) := by
  unfold loadMeta at h
  cases hFile : dir.deviceJson with
  | missing =>
      rw [hFile] at h
      obtain ⟨rfl, rfl⟩ := Prod.mk.inj (Except.ok.inj h)
      exact ⟨hLower, Or.inl ⟨rfl, rfl⟩⟩
  | malformed =>
      rw [hFile] at h
      dsimp only at h
      split at h <;> cases h
  | parsed old =>
      rw [hFile] at h
      dsimp only at h
      split at h
      · next hRead =>
          split at h
          · next hOther =>
              obtain ⟨rfl, rfl⟩ := Prod.mk.inj (Except.ok.inj h)
              exact ⟨hLower, Or.inr ⟨old, rfl, hRead, by simpa using hOther⟩⟩
          · next hSame =>
              obtain ⟨rfl, rfl⟩ := Prod.mk.inj (Except.ok.inj h)
              rw [not_not] at hSame
              exact ⟨hSame, Or.inr ⟨old, rfl, hRead, by simp [hSame]⟩⟩
      · cases h

omit [DecidableEq Id] in
/-- A start as far as its identity: nothing the devices depend on has changed,
or `device.json` carries this start's id. -/
theorem loadOrCreateIdentity_cases {result : Except StartError LoadedIdentity}
    (h : loadOrCreateIdentity android publicKey a dir = (dir', result)) :
    (dir'.deviceJson = dir.deviceJson ∧ dir'.pairedDevices = dir.pairedDevices ∧
      ∃ e, result = .error e) ∨
    ∃ outcome m previous,
      (loadOrCreateSecret android a.secret dir.keys).result = .ok outcome ∧
      m.endpointId.toLowercase = EndpointKeys.toStr (publicKey outcome.secret) ∧
      dir'.deviceJson = .parsed m ∧ dir'.pairedDevices = dir.pairedDevices ∧
      a.metaWrite.Replaces ∧
      (dir.deviceJson = .missing ∧ previous = none ∨
        ∃ old, dir.deviceJson = .parsed old ∧ a.metaRead = true ∧ (previous.isSome = true ↔
          old.endpointId.toLowercase ≠ EndpointKeys.toStr (publicKey outcome.secret))) ∧
      (a.metaWrite = .done ∧ result = .ok ⟨outcome.secret, m, previous.isSome, previous⟩ ∨
        a.metaWrite ≠ .done ∧ ∃ e, result = .error e) := by
  unfold loadOrCreateIdentity at h
  dsimp only at h
  cases hSecret : (loadOrCreateSecret android a.secret dir.keys).result with
  | error e =>
      rw [hSecret] at h
      obtain ⟨rfl, rfl⟩ := Prod.mk.inj h
      exact Or.inl ⟨rfl, rfl, _, rfl⟩
  | ok outcome =>
      rw [hSecret] at h
      dsimp only at h
      cases hMeta : loadMeta a { dir with keys := (loadOrCreateSecret android a.secret dir.keys).disk }
          (EndpointKeys.toStr (publicKey outcome.secret)) with
      | error e =>
          rw [hMeta] at h
          obtain ⟨rfl, rfl⟩ := Prod.mk.inj h
          exact Or.inl ⟨rfl, rfl, _, rfl⟩
      | ok found =>
          obtain ⟨m, previous⟩ := found
          obtain ⟨hId, hBefore⟩ := loadMeta_ok (toStr_toLowercase _) hMeta
          rw [hMeta] at h
          unfold writeMeta at h
          cases hWrite : a.metaWrite with
          | done =>
              rw [hWrite] at h
              obtain ⟨rfl, rfl⟩ := Prod.mk.inj h
              exact Or.inr ⟨outcome, m.migrate a.here, previous, rfl, hId, rfl, rfl,
                Or.inl rfl, hBefore, Or.inl ⟨rfl, rfl⟩⟩
          | failed =>
              rw [hWrite] at h
              obtain ⟨rfl, rfl⟩ := Prod.mk.inj h
              exact Or.inl ⟨rfl, rfl, _, rfl⟩
          | crashed replaced =>
              rw [hWrite] at h
              cases replaced with
              | true =>
                  obtain ⟨rfl, rfl⟩ := Prod.mk.inj h
                  exact Or.inr ⟨outcome, m.migrate a.here, previous, rfl, hId, rfl, rfl,
                    Or.inr rfl, hBefore, Or.inr ⟨nofun, _, rfl⟩⟩
              | false =>
                  obtain ⟨rfl, rfl⟩ := Prod.mk.inj h
                  exact Or.inl ⟨rfl, rfl, _, rfl⟩

/-- Marking touches nothing but the devices' file, and no device is active
afterwards when the file could be read and replaced. -/
theorem markStale_cases {result : Except StartError Nat} (h : markStale a dir = (dir', result)) :
    dir'.deviceJson = dir.deviceJson ∧
      ((∀ d ∈ dir'.devices, d.pairingStatus ≠ .active) ∨
        dir'.devices = dir.devices ∧ ¬(a.staleRead = true ∧ a.staleWrite.Replaces)) := by
  unfold markStale at h
  split at h
  · next hRead =>
      dsimp only at h
      split at h
      · cases hWrite : a.staleWrite with
        | done =>
            rw [hWrite] at h
            obtain ⟨rfl, rfl⟩ := Prod.mk.inj h
            exact ⟨rfl, Or.inl (not_active_markStale dir.devices)⟩
        | failed =>
            rw [hWrite] at h
            obtain ⟨rfl, rfl⟩ := Prod.mk.inj h
            exact ⟨rfl, Or.inr ⟨rfl, by simp [FileWrite.Replaces]⟩⟩
        | crashed replaced =>
            rw [hWrite] at h
            cases replaced with
            | true =>
                obtain ⟨rfl, rfl⟩ := Prod.mk.inj h
                exact ⟨rfl, Or.inl (not_active_markStale dir.devices)⟩
            | false =>
                obtain ⟨rfl, rfl⟩ := Prod.mk.inj h
                exact ⟨rfl, Or.inr ⟨rfl, by simp [FileWrite.Replaces]⟩⟩
      · next hNone =>
          obtain ⟨rfl, rfl⟩ := Prod.mk.inj h
          refine ⟨rfl, Or.inl ?_⟩
          have hZero := List.countP_eq_zero.mp (Nat.eq_zero_of_not_pos hNone)
          exact fun d hd => by simpa using hZero d hd
  · next hUnread =>
      obtain ⟨rfl, rfl⟩ := Prod.mk.inj h
      exact ⟨rfl, Or.inr ⟨rfl, fun hBoth => hUnread hBoth.1⟩⟩

omit [DecidableEq Id] in
/-- A node that serves runs under the identity it was started with. -/
theorem serveNode_ok {identity : LoadedIdentity} {allowed : Finset Id}
    {marked : Except StartError Nat} {node : StartedNode Id}
    (h : serveNode publicKey a identity allowed marked = .ok node) : node.identity = identity := by
  unfold serveNode at h
  split at h
  · cases h
  · dsimp only at h
    split at h
    · rw [← Except.ok.inj h]
    · cases h

/-- The devices after a start that put `local'` into `device.json`: as they
were, when it was that id before or there was none; otherwise none is active,
or the start did not get through. -/
def DevicesAfter (a : StartAnswers) (dir dir' : DataDir) (local' : String) : Prop :=
  (dir.deviceJson = .missing ∨
      ∃ old, dir.deviceJson = .parsed old ∧ old.endpointId.toLowercase = local') ∧
    dir'.devices = dir.devices ∨
  (∃ old, dir.deviceJson = .parsed old ∧ old.endpointId.toLowercase ≠ local') ∧
    a.metaRead = true ∧ a.metaWrite.Replaces ∧
    ((∀ d ∈ dir'.devices, d.pairingStatus ≠ .active) ∨ dir'.devices = dir.devices ∧ ¬a.Finishes)

/-- Everything a start can leave behind. -/
theorem startNode_cases {result : Except StartError (StartedNode Id)}
    (h : startNode android publicKey a dir = (dir', result)) :
    (dir'.deviceJson = dir.deviceJson ∧ dir'.devices = dir.devices ∧ ∃ e, result = .error e) ∨
    ∃ outcome m, (loadOrCreateSecret android a.secret dir.keys).result = .ok outcome ∧
      m.endpointId.toLowercase = EndpointKeys.toStr (publicKey outcome.secret) ∧
      dir'.deviceJson = .parsed m ∧
      (∀ node, result = .ok node →
        node.identity.secretKey = outcome.secret ∧ node.identity.metaFile = m) ∧
      DevicesAfter a dir dir' (EndpointKeys.toStr (publicKey outcome.secret)) := by
  unfold startNode at h
  cases hIdentity : loadOrCreateIdentity android publicKey a dir with
  | mk mid loaded =>
  rw [hIdentity] at h
  rcases loadOrCreateIdentity_cases android publicKey hIdentity with
    ⟨hJson, hPaired, e, rfl⟩ | ⟨outcome, m, previous, hSecret, hId, hJson, hPaired, hReplaced,
      hBefore, hDone⟩
  · obtain ⟨rfl, rfl⟩ := Prod.mk.inj h
    exact Or.inl ⟨hJson, DataDir.devices_congr hPaired, e, rfl⟩
  · have hDevices := DataDir.devices_congr hPaired
    refine Or.inr ⟨outcome, m, hSecret, hId, ?_⟩
    -- a start that ends before the devices leaves them as they were
    have hStopped (hSame : dir'.devices = mid.devices) (hCut : ¬a.Finishes) :
        DevicesAfter a dir dir' (EndpointKeys.toStr (publicKey outcome.secret)) := by
      rw [hDevices] at hSame
      rcases hBefore with ⟨hMissing, _⟩ | ⟨old, hOld, hRead, _⟩
      · exact Or.inl ⟨Or.inl hMissing, hSame⟩
      · by_cases hOwn : old.endpointId.toLowercase = EndpointKeys.toStr (publicKey outcome.secret)
        · exact Or.inl ⟨Or.inr ⟨old, hOld, hOwn⟩, hSame⟩
        · exact Or.inr ⟨⟨old, hOld, hOwn⟩, hRead, hReplaced, Or.inr ⟨hSame, hCut⟩⟩
    rcases hDone with ⟨hWrite, rfl⟩ | ⟨hWrite, e, rfl⟩
    · dsimp only at h
      split at h
      · next hList =>
          obtain ⟨hDir, hResult⟩ := Prod.mk.inj h
          have hNode : ∀ node, result = .ok node →
              node.identity.secretKey = outcome.secret ∧ node.identity.metaFile = m := by
            intro node hOk
            rw [serveNode_ok publicKey (hResult.trans hOk)]
            exact ⟨rfl, rfl⟩
          cases hRotated : previous.isSome with
          | false =>
              simp only [hRotated, Bool.false_eq_true, if_false] at hDir
              subst hDir
              refine ⟨hJson, hNode, Or.inl ⟨?_, hDevices⟩⟩
              rcases hBefore with ⟨hMissing, _⟩ | ⟨old, hOld, _, hOther⟩
              · exact Or.inl hMissing
              · refine Or.inr ⟨old, hOld, not_not.mp fun hNe => ?_⟩
                rw [hRotated] at hOther
                exact Bool.noConfusion (hOther.mpr hNe)
          | true =>
              simp only [hRotated, if_true] at hDir
              obtain ⟨hMarkedJson, hMarked⟩ := @markStale_cases a mid dir' (markStale a mid).2
                (by rw [← hDir])
              refine ⟨hMarkedJson.trans hJson, hNode, Or.inr ?_⟩
              rcases hBefore with ⟨_, hNone⟩ | ⟨old, hOld, hRead, hOther⟩
              · rw [hNone] at hRotated
                cases hRotated
              · refine ⟨⟨old, hOld, hOther.mp hRotated⟩, hRead, hReplaced, ?_⟩
                rcases hMarked with hNone | ⟨hSame, hCut⟩
                · exact Or.inl hNone
                · exact Or.inr ⟨hSame.trans hDevices, fun hAll => hCut hAll.2.2⟩
      · next hUnread =>
          obtain ⟨rfl, rfl⟩ := Prod.mk.inj h
          exact ⟨hJson, fun node hOk => (nomatch hOk), hStopped rfl fun hAll => hUnread hAll.2.1⟩
    · obtain ⟨rfl, rfl⟩ := Prod.mk.inj h
      exact ⟨hJson, fun node hOk => (nomatch hOk), hStopped rfl fun hAll => hWrite hAll.1⟩

end

section
variable {i i' : Installation}

omit [DecidableEq Id] in
/-- A crash keeps what is on disk consistent. -/
theorem Consistent.dead (h : Consistent publicKey i) : Consistent publicKey i.dead where
  onDisk := h.onDisk
  inMemory := nofun
  inFlight := nofun
  idle := fun _ => rfl

omit [DecidableEq Id] in
theorem DataDir.owner_eq {dir : DataDir} {m : DeviceMetaFile} {local' : String}
    (hJson : dir.deviceJson = .parsed m) (hId : m.endpointId.toLowercase = local') :
    dir.owner = some local' := by
  rw [DataDir.owner, hJson, ← hId]

/-- A start keeps every active device owned by the id in `device.json`. -/
theorem Consistent.start {a : StartAnswers} {dir' : DataDir}
    {result : Except StartError (StartedNode Id)} (h : Consistent publicKey i)
    (hWhole : RotatesWhole android publicKey i (.start a))
    (hStart : startNode android publicKey a i.dir = (dir', result)) :
    ActiveOwned i.remembered dir'.owner dir'.devices ∧
      ∀ node, result = .ok node →
        node.identity.metaFile.endpointId.toLowercase =
          EndpointKeys.toStr (publicKey node.identity.secretKey) ∧
        dir'.owner = some (EndpointKeys.toStr (publicKey node.identity.secretKey)) := by
  rcases startNode_cases android publicKey hStart with
    ⟨hJson, hDevices, e, rfl⟩ | ⟨outcome, m, hSecret, hId, hJson, hNode, hAfter⟩
  · refine ⟨?_, fun node hOk => (nomatch hOk)⟩
    have hOwner : dir'.owner = i.dir.owner := by rw [DataDir.owner, DataDir.owner, hJson]
    rw [hOwner, hDevices]
    exact h.onDisk
  · have hOwner := DataDir.owner_eq hJson hId
    refine ⟨?_, ?_⟩
    · rcases hAfter with ⟨hBefore, hSame⟩ | ⟨⟨old, hOld, hOther⟩, hRead, hReplaced, hMarked⟩
      · rcases hBefore with hMissing | ⟨old, hOld, hOwn⟩
        · refine ActiveOwned.of_none fun d hd hActive => ?_
          obtain ⟨_, hNone, _⟩ := h.onDisk d (hSame ▸ hd) hActive
          rw [DataDir.owner, hMissing] at hNone
          cases hNone
        · have hBoth := h.onDisk
          rw [DataDir.owner_eq hOld hOwn] at hBoth
          rw [hOwner, hSame]
          exact hBoth
      · rcases hMarked with hNone | ⟨hSame, hCut⟩
        · exact ActiveOwned.of_none hNone
        · refine ActiveOwned.of_none fun d hd hActive => hCut ?_
          refine hWhole ?_ hRead hReplaced ⟨d, hSame ▸ hd, hActive⟩
          simpa [StartAnswers.rotates, hSecret, hOld] using hOther
    · intro node hOk
      obtain ⟨hKey, hMeta⟩ := hNode node hOk
      rw [hKey, hMeta]
      exact ⟨hId, hOwner⟩

omit [DecidableEq Id] in
/-- A store call keeps the devices owned by the running node. -/
theorem Consistent.replaceFile {identity : LoadedIdentity} {base file : List PairedDevice}
    {op : StoreOp} (h : Consistent publicKey i) (hRunning : i.running = some identity)
    (hBase : base ∈ i.inFlight)
    (hFile : (op.run String.toLowercase base).written = some file) :
    Consistent publicKey
      (i.replaceFile (EndpointKeys.toStr (publicKey identity.secretKey)) op file) := by
  obtain ⟨_, hOwner⟩ := h.inMemory identity hRunning
  have hFlight := h.inFlight
  rw [hOwner] at hFlight
  constructor
  · change ActiveOwned _ i.dir.owner file
    rw [hOwner]
    exact (hFlight base hBase).store hFile
  · exact h.inMemory
  · intro devices hMem
    change ActiveOwned _ i.dir.owner devices
    rw [hOwner]
    exact (hFlight devices hMem).record op
  · exact h.idle

omit [DecidableEq Id] in
/-- A call that ends keeps the installation consistent. -/
theorem Consistent.erase (h : Consistent publicKey i) (call : Nat) :
    Consistent publicKey { i with inFlight := i.inFlight.eraseIdx call } where
  onDisk := h.onDisk
  inMemory := h.inMemory
  inFlight := fun devices hMem => h.inFlight devices (List.mem_of_mem_eraseIdx hMem)
  idle := fun hNone => by rw [h.idle hNone]; rfl

omit [DecidableEq Id] in
/-- Writing `device.json` again under the running node's id. -/
theorem Consistent.writeMeta {identity : LoadedIdentity} {m : DeviceMetaFile}
    (h : Consistent publicKey i) (hRunning : i.running = some identity)
    (hSame : m.endpointId = identity.metaFile.endpointId) :
    Consistent publicKey { i with dir := { i.dir with deviceJson := .parsed m } } := by
  obtain ⟨hMeta, hOwner⟩ := h.inMemory identity hRunning
  have hKeep : ({ i.dir with deviceJson := .parsed m } : DataDir).owner = i.dir.owner := by
    rw [hOwner, ← hMeta, ← hSame]
    rfl
  constructor
  · change ActiveOwned _ (DataDir.owner { i.dir with deviceJson := .parsed m }) i.dir.devices
    rw [hKeep]
    exact h.onDisk
  · intro other hOther
    rw [hKeep]
    exact h.inMemory other hOther
  · intro devices hMem
    rw [hKeep]
    exact h.inFlight devices hMem
  · exact h.idle

omit [DecidableEq Id] in
/-- A new name in memory keeps the installation consistent. -/
theorem Consistent.renameInMemory {identity : LoadedIdentity} {m : DeviceMetaFile}
    (h : Consistent publicKey i) (hRunning : i.running = some identity)
    (hSame : m.endpointId = identity.metaFile.endpointId) :
    Consistent publicKey { i with running := some { identity with metaFile := m } } := by
  obtain ⟨hMeta, hOwner⟩ := h.inMemory identity hRunning
  refine ⟨h.onDisk, ?_, h.inFlight, fun hNone => (nomatch hNone)⟩
  intro other hOther
  obtain rfl := Option.some.inj hOther
  exact ⟨by rw [← hMeta, ← hSame], hOwner⟩

/-- One step that does not break a rotation apart keeps the installation consistent. -/
theorem Consistent.step {step : InstallationStep} (h : Consistent publicKey i)
    (hWhole : RotatesWhole android publicKey i step)
    (hStep : i.next android publicKey step = some i') : Consistent publicKey i' := by
  cases step with
  | start a =>
      cases hRunning : i.running with
      | some identity => simp [Installation.next, hRunning] at hStep
      | none =>
          cases hStart : startNode android publicKey a i.dir with
          | mk dir' result =>
          obtain ⟨hDisk, hMemory⟩ := h.start android publicKey hWhole hStart
          have hEmpty := h.idle hRunning
          simp only [Installation.next, hRunning, hStart] at hStep
          cases result with
          | error e =>
              obtain rfl := Option.some.inj hStep
              refine ⟨hDisk, fun identity hSome => (nomatch hSome), ?_, fun _ => hEmpty⟩
              intro devices hMem
              rw [hEmpty] at hMem
              cases hMem
          | ok node =>
              obtain rfl := Option.some.inj hStep
              refine ⟨hDisk, ?_, ?_, fun hNone => (nomatch hNone)⟩
              · intro identity hSome
                obtain rfl := Option.some.inj hSome
                exact hMemory node rfl
              · intro devices hMem
                rw [hEmpty] at hMem
                cases hMem
  | storeRead =>
      cases hRunning : i.running with
      | none => simp [Installation.next, hRunning] at hStep
      | some identity =>
          have hRead : i.next android publicKey .storeRead =
              some { i with inFlight := i.inFlight ++ [i.dir.devices] } := by
            simp [Installation.next, hRunning]
          obtain rfl := Option.some.inj (hRead.symm.trans hStep)
          refine ⟨h.onDisk, h.inMemory, ?_, fun hNone => by rw [hRunning] at hNone; cases hNone⟩
          intro devices hMem
          rcases List.mem_append.mp hMem with hOld | hNew
          · exact h.inFlight devices hOld
          · rw [List.mem_singleton.mp hNew]
            exact h.onDisk
  | storeWrite call op write =>
      obtain ⟨identity, hRunning, hRest⟩ := Option.bind_eq_some_iff.mp hStep
      obtain ⟨base, hBase, hRest⟩ := Option.bind_eq_some_iff.mp hRest
      have hMem := List.mem_of_getElem? hBase
      cases hFile : (op.run String.toLowercase base).written with
      | none =>
          simp only [hFile, Option.some.injEq] at hRest
          exact hRest ▸ h.erase publicKey call
      | some file =>
          have hReplaced := h.replaceFile publicKey hRunning hMem hFile
          simp only [hFile] at hRest
          cases write with
          | done =>
              obtain rfl := Option.some.inj hRest
              exact hReplaced.erase publicKey call
          | failed =>
              obtain rfl := Option.some.inj hRest
              exact h.erase publicKey call
          | crashed replaced =>
              cases replaced with
              | true =>
                  obtain rfl := Option.some.inj hRest
                  exact hReplaced.dead publicKey
              | false =>
                  obtain rfl := Option.some.inj hRest
                  exact h.dead publicKey
  | setDisplayName normalized here write =>
      obtain ⟨identity, hRunning, hRest⟩ := Option.bind_eq_some_iff.mp hStep
      have hSame : (DeviceMetaFile.migrate here
          { identity.metaFile with displayName := normalized, nameIsCustom := true }).endpointId =
            identity.metaFile.endpointId := rfl
      cases write with
      | done =>
          obtain rfl := Option.some.inj hRest
          exact (h.writeMeta publicKey hRunning hSame).renameInMemory publicKey hRunning hSame
      | failed =>
          obtain rfl := Option.some.inj hRest
          exact h.renameInMemory publicKey hRunning hSame
      | crashed replaced =>
          cases replaced with
          | true =>
              obtain rfl := Option.some.inj hRest
              exact (h.writeMeta publicKey hRunning hSame).dead publicKey
          | false =>
              obtain rfl := Option.some.inj hRest
              exact h.dead publicKey
  | exit =>
      cases hRunning : i.running with
      | none => simp [Installation.next, hRunning] at hStep
      | some identity =>
          simp only [Installation.next, hRunning, Option.some.injEq] at hStep
          exact hStep ▸ h.dead publicKey

/-- With each rotation carried through both files, no restart, crash or write
failure leaves a device active that was remembered only under another id. -/
theorem identity_rotation_crash_safe {keys : KeyDisk} {deviceJson : JsonFile DeviceMetaFile}
    {steps : List InstallationStep} {i : Installation} {identity : LoadedIdentity}
    (hWhole : Meets (Installation.next android publicKey) (RotatesWhole android publicKey)
      (.fresh keys deviceJson) steps)
    (hRun : exec (Installation.next android publicKey) (.fresh keys deviceJson) steps = some i)
    (hRunning : i.running = some identity) :
    NoneForeign i (EndpointKeys.toStr (publicKey identity.secretKey)) := by
  have hStart : Consistent publicKey (Installation.fresh keys deviceJson) :=
    ⟨nofun, nofun, nofun, fun _ => rfl⟩
  have hConsistent := hWhole.invariant
    (fun _ _ _ hInv hStep hNext => hInv.step android publicKey hStep hNext) hRun hStart
  obtain ⟨_, hOwner⟩ := hConsistent.inMemory identity hRunning
  rintro d hd ⟨other, hOther⟩ hForeign hActive
  obtain ⟨local', hLocal, hOwned⟩ := hConsistent.onDisk d hd hActive
  obtain rfl := Option.some.inj (hOwner.symm.trans hLocal)
  rcases hOwned with hOwn | hNone
  · exact hForeign hOwn
  · exact hNone other hOther

end

end

/-- No active record of another local key: read off the history, or off the remembered
pairings. -/
theorem noneForeign_iff {i : Installation} {local' : String} :
    (∀ d ∈ i.dir.devices, (∃ r ∈ i.remembered, r.1 = d.endpointId.toLowercase) →
      (d.endpointId.toLowercase, local') ∉ i.remembered → d.pairingStatus ≠ .active) ↔
    NoneForeign i local' := by
  have hKey (key : String) : (∃ r ∈ i.remembered, r.1 = key) ↔
      ∃ other, (key, other) ∈ i.remembered := by
    constructor
    · rintro ⟨r, hMem, rfl⟩
      exact ⟨r.2, hMem⟩
    · rintro ⟨other, hMem⟩
      exact ⟨_, hMem, rfl⟩
  simp only [NoneForeign, hKey]

instance (i : Installation) (local' : String) : Decidable (NoneForeign i local') :=
  decidable_of_iff _ noneForeign_iff

/-! An installation that was alice and comes up as bob. -/

def exampleKey (secret : SecretKey) : HexId := if secret = exampleSecret 7 then alice else bob

def exampleStart (irohSecret : Option String) (metaWrite : FileWrite) : StartAnswers where
  secret := { startWith .noEntry with irohSecret := irohSecret }
  here := ⟨"linux", "desk", "desktop", 1⟩
  metaRead := true
  metaWrite := metaWrite
  listRead := true
  staleRead := true
  staleWrite := .done
  runtimeBuilt := true

def bobSecret : Option String := some (HexLower.encode (exampleSecret 5).toBytes)

def pairedOnce : List InstallationStep :=
  [.start (exampleStart none .done), .storeRead,
    .storeWrite 0 (.remember ⟨mallory.text, "m", "phone", "ios", 2, 2, none, .active⟩) .done, .exit]

theorem identity_rotation_crash_safe_rotated :
    ∃ i identity, exec (Installation.next false exampleKey) (.fresh keptSecret .missing)
        (pairedOnce ++ [.start (exampleStart bobSecret .done)]) = some i ∧
      i.running = some identity ∧
      NoneForeign i (EndpointKeys.toStr (exampleKey identity.secretKey)) := by
  have hStarted : Meets (Installation.next false exampleKey) (RotatesWhole false exampleKey)
        (.fresh keptSecret .missing) (pairedOnce ++ [.start (exampleStart bobSecret .done)]) ∧
      ∃ i, exec (Installation.next false exampleKey) (.fresh keptSecret .missing)
          (pairedOnce ++ [.start (exampleStart bobSecret .done)]) = some i ∧
        ∃ identity, i.running = some identity ∧ True := by
    decide +kernel
  obtain ⟨hWhole, i, hRun, identity, hRunning, _⟩ := hStarted
  exact ⟨i, identity, hRun, hRunning,
    identity_rotation_crash_safe false exampleKey hWhole hRun hRunning⟩

/-- The process ends after `device.json` was replaced and before the devices
were marked. The next start finds its own id in `device.json` and marks nothing. -/
theorem rotation_lost_in_crash :
    ¬∀ (steps : List InstallationStep) (i : Installation) (identity : LoadedIdentity),
      exec (Installation.next false exampleKey) (.fresh keptSecret .missing) steps = some i →
      i.running = some identity →
      NoneForeign i (EndpointKeys.toStr (exampleKey identity.secretKey)) := by
  intro h
  have hRun : ∃ i, exec (Installation.next false exampleKey) (.fresh keptSecret .missing)
        (pairedOnce ++ [.start (exampleStart bobSecret (.crashed true)),
          .start (exampleStart bobSecret .done)]) = some i ∧
      ∃ identity, i.running = some identity ∧
        ¬NoneForeign i (EndpointKeys.toStr (exampleKey identity.secretKey)) := by
    decide +kernel
  obtain ⟨i, hRun, identity, hRunning, hForeign⟩ := hRun
  exact hForeign (h _ i identity hRun hRunning)

end AltSendme
