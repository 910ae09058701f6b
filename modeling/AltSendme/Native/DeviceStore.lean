import AltSendme.Protocol.Identity
import Mathlib.Data.List.Basic

/-! The operations of `PairedDeviceStore` on the list that `read_file`
returned. An operation either hands a new list to `write_file` or writes
nothing; when the file is read and when it is replaced is decided by the
caller's interleaving, not here. -/
namespace AltSendme

namespace PairedDeviceStore
variable (lower : String → String)

/-- Both sides are lowercased, as in every operation of the store; `lower` is
`str::to_lowercase`. -/
def sameId (endpointId : String) (d : PairedDevice) : Bool :=
  lower d.endpointId == lower endpointId

def get (file : List PairedDevice) (endpointId : String) : Option PairedDevice :=
  file.find? (sameId lower endpointId)

/-- `iter_mut().find(..)`: change the first record with this id. -/
def modify (endpointId : String) (change : PairedDevice → PairedDevice)
    (file : List PairedDevice) : List PairedDevice :=
  file.replaceF fun d => if sameId lower endpointId d then some (change d) else none

/-- What `remember` overwrites on a record that is already there. -/
def merge (device existing : PairedDevice) : PairedDevice :=
  { existing with
    displayName := device.displayName
    deviceType := device.deviceType
    os := device.os
    lastSeenAt := device.lastSeenAt
    relayUrl := if device.relayUrl.isSome then device.relayUrl else existing.relayUrl
    pairingStatus := .active }

def remember (device : PairedDevice) (file : List PairedDevice) : List PairedDevice :=
  match get lower file device.endpointId with
  | some _ => modify lower device.endpointId (merge device) file
  | none => file ++ [device]

def forget (endpointId : String) (file : List PairedDevice) : List PairedDevice :=
  file.filter fun d => !sameId lower endpointId d

def touch (endpointId : String) (lastSeenAt : UInt64) (file : List PairedDevice) :
    List PairedDevice :=
  modify lower endpointId (fun d => { d with lastSeenAt := lastSeenAt }) file

def markUnpairedRemotely (endpointId : String) (file : List PairedDevice) : List PairedDevice :=
  modify lower endpointId (fun d => { d with pairingStatus := .unpairedRemotely }) file

def markStale (d : PairedDevice) : PairedDevice :=
  if d.pairingStatus = .active then { d with pairingStatus := .staleLocalIdentity } else d

def markStaleAfterLocalIdentityRotation (file : List PairedDevice) : List PairedDevice :=
  file.map markStale

end PairedDeviceStore

/-- A call of the store. `rename` carries the name after `normalize_display_name`. -/
inductive StoreOp where
  | remember (device : PairedDevice)
  | rename (endpointId displayName : String)
  | forget (endpointId : String)
  | touch (endpointId : String) (lastSeenAt : UInt64)
  | markUnpairedRemotely (endpointId : String)
  deriving DecidableEq, Repr

/-- `written` is the argument of `write_file`, when it is called; `reply` is
the value returned after that write succeeded. -/
structure StoreResult where
  written : Option (List PairedDevice)
  reply : Except String (Option PairedDevice)

namespace StoreOp

def run (lower : String → String) (file : List PairedDevice) : StoreOp → StoreResult
  | .remember device =>
      let file' := PairedDeviceStore.remember lower device file
      ⟨some file', .ok (PairedDeviceStore.get lower file' device.endpointId)⟩
  | .rename endpointId displayName =>
      match PairedDeviceStore.get lower file endpointId with
      | none => ⟨none, .error "paired device not found"⟩
      | some d =>
          ⟨some (PairedDeviceStore.modify lower endpointId
              (fun d => { d with displayName := displayName }) file),
            .ok (some { d with displayName := displayName })⟩
  | .forget endpointId => ⟨some (PairedDeviceStore.forget lower endpointId file), .ok none⟩
  | .touch endpointId lastSeenAt =>
      match PairedDeviceStore.get lower file endpointId with
      | none => ⟨none, .ok none⟩
      | some _ => ⟨some (PairedDeviceStore.touch lower endpointId lastSeenAt file), .ok none⟩
  | .markUnpairedRemotely endpointId =>
      match PairedDeviceStore.get lower file endpointId with
      | none => ⟨none, .ok none⟩
      | some d =>
          ⟨some (PairedDeviceStore.markUnpairedRemotely lower endpointId file),
            .ok (some { d with pairingStatus := .unpairedRemotely })⟩

/-- The list the file holds once the call has run alone. -/
def apply (lower : String → String) (op : StoreOp) (file : List PairedDevice) :
    List PairedDevice :=
  (op.run lower file).written.getD file

/-- The one record a call may change. -/
def endpointId : StoreOp → String
  | .remember device => device.endpointId
  | .rename endpointId _ => endpointId
  | .forget endpointId => endpointId
  | .touch endpointId _ => endpointId
  | .markUnpairedRemotely endpointId => endpointId

end StoreOp

namespace PairedDeviceStore
variable {lower : String → String}

/-- Ids are compared in lower case. -/
theorem sameId_iff {endpointId : String} {d : PairedDevice} :
    sameId lower endpointId d = true ↔ lower d.endpointId = lower endpointId := by
  simp [sameId]

theorem sameId_congr {left right : String} (h : lower left = lower right) :
    sameId lower left = sameId lower right := by
  funext d
  simp [sameId, h]

theorem get_congr {left right : String} (h : lower left = lower right)
    (file : List PairedDevice) : get lower file left = get lower file right := by
  rw [get, get, sameId_congr h]

/-- The record found is one of the list and carries the id asked for. -/
theorem get_eq_some {file : List PairedDevice} {endpointId : String} {d : PairedDevice}
    (h : get lower file endpointId = some d) :
    d ∈ file ∧ lower d.endpointId = lower endpointId :=
  ⟨List.mem_of_find?_eq_some h, sameId_iff.mp (List.find?_some h)⟩

/-- What a change keeps of every record, it keeps of the list. -/
theorem forall_mem_modify {P : PairedDevice → Prop} {endpointId : String}
    {change : PairedDevice → PairedDevice} (hChange : ∀ d, P d → P (change d))
    {file : List PairedDevice} (h : ∀ d ∈ file, P d) :
    ∀ d ∈ modify lower endpointId change file, P d := by
  induction file with
  | nil => exact h
  | cons d rest ih =>
      rw [List.forall_mem_cons] at h
      rw [modify, List.replaceF]
      cases sameId lower endpointId d with
      | false => exact List.forall_mem_cons.mpr ⟨h.1, ih h.2⟩
      | true => exact List.forall_mem_cons.mpr ⟨hChange d h.1, h.2⟩

/-- What a merge keeps and the new device has, every record has after remembering. -/
theorem forall_mem_remember {P : PairedDevice → Prop} {device : PairedDevice}
    (hMerge : ∀ d, P d → P (merge device d)) (hDevice : P device)
    {file : List PairedDevice} (h : ∀ d ∈ file, P d) : ∀ d ∈ remember lower device file, P d := by
  unfold remember
  split
  · exact forall_mem_modify hMerge h
  · rw [List.forall_mem_append, List.forall_mem_singleton]
    exact ⟨h, hDevice⟩

/-- A change that keeps the id is not seen by a look for one. -/
theorem sameId_change {endpointId : String} {change : PairedDevice → PairedDevice}
    (hKeep : ∀ d, (change d).endpointId = d.endpointId) (d : PairedDevice) :
    sameId lower endpointId (change d) = sameId lower endpointId d := by
  rw [sameId, sameId, hKeep]

/-- A change reaches the record of its own id. -/
theorem get_modify_same {endpointId other : String} (change : PairedDevice → PairedDevice)
    (hKeep : ∀ d, (change d).endpointId = d.endpointId)
    (hSame : lower other = lower endpointId) (file : List PairedDevice) :
    get lower (modify lower endpointId change file) other = (get lower file other).map change := by
  rw [get, get, sameId_congr hSame]
  induction file with
  | nil => rfl
  | cons d rest ih =>
      rw [modify, List.replaceF]
      cases hd : sameId lower endpointId d with
      | false => simpa [hd, modify] using ih
      | true => simp [hd, sameId_change hKeep]

/-- A change reaches no other record. -/
theorem get_modify_other {endpointId other : String} (change : PairedDevice → PairedDevice)
    (hKeep : ∀ d, (change d).endpointId = d.endpointId)
    (hOther : lower other ≠ lower endpointId) (file : List PairedDevice) :
    get lower (modify lower endpointId change file) other = get lower file other := by
  have hApart : ∀ d, lower d.endpointId = lower endpointId → sameId lower other d = false := by
    intro d hd
    rw [Bool.eq_false_iff, Ne, sameId_iff, hd]
    exact Ne.symm hOther
  induction file with
  | nil => rfl
  | cons d rest ih =>
      rw [modify, List.replaceF]
      cases hd : sameId lower endpointId d with
      | false =>
          simp only [Bool.false_eq_true, if_false]
          rw [get, get, List.find?_cons, List.find?_cons]
          split
          · rfl
          · exact ih
      | true =>
          have hOld := hApart d (sameId_iff.mp hd)
          have hNew := hApart (change d) (by rw [hKeep]; exact sameId_iff.mp hd)
          simp [get, hOld, hNew]

/-- `remember` stores the device under its id, active, over what was there. -/
theorem get_remember_same {device : PairedDevice} {other : String}
    (hSame : lower other = lower device.endpointId) (file : List PairedDevice) :
    get lower (remember lower device file) other =
      some (((get lower file other).map (merge device)).getD device) := by
  have hCongr := get_congr hSame file
  cases hGet : get lower file device.endpointId with
  | none =>
      have hHit : sameId lower other device = true := sameId_iff.mpr hSame.symm
      rw [hCongr, hGet]
      simp only [remember, hGet, Option.map_none, Option.getD_none]
      rw [get, List.find?_append]
      change (get lower file other).or _ = _
      simp [hCongr, hGet, hHit]
  | some d =>
      simp only [remember, hGet]
      rw [get_modify_same (merge device) (fun _ => rfl) hSame, hCongr, hGet]
      rfl

/-- Remembering reaches no other record. -/
theorem get_remember_other {device : PairedDevice} {other : String}
    (hOther : lower other ≠ lower device.endpointId) (file : List PairedDevice) :
    get lower (remember lower device file) other = get lower file other := by
  cases hGet : get lower file device.endpointId with
  | none =>
      have hMiss : sameId lower other device = false := by
        rw [Bool.eq_false_iff, Ne, sameId_iff]
        exact fun h => hOther h.symm
      simp only [remember, hGet]
      rw [get, get, List.find?_append]
      simp [hMiss]
  | some d =>
      simp only [remember, hGet]
      exact get_modify_other (merge device) (fun _ => rfl) hOther file

/-- A forgotten device has no record. -/
theorem get_forget_same {endpointId other : String}
    (hSame : lower other = lower endpointId) (file : List PairedDevice) :
    get lower (forget lower endpointId file) other = none := by
  rw [get, sameId_congr hSame, List.find?_eq_none]
  intro d hd
  have hKept := (List.mem_filter.mp hd).2
  simpa using hKept

/-- Forgetting reaches no other record. -/
theorem get_forget_other {endpointId other : String}
    (hOther : lower other ≠ lower endpointId) (file : List PairedDevice) :
    get lower (forget lower endpointId file) other = get lower file other := by
  rw [get, get, forget, List.find?_filter]
  congr 1
  funext d
  cases hd : sameId lower other d with
  | false => simp
  | true =>
      have hMiss : sameId lower endpointId d = false := by
        rw [Bool.eq_false_iff, Ne, sameId_iff, sameId_iff.mp hd]
        exact hOther
      simp [hMiss]

theorem get_markStaleAfterLocalIdentityRotation (file : List PairedDevice)
    (endpointId : String) :
    get lower (markStaleAfterLocalIdentityRotation file) endpointId =
      (get lower file endpointId).map markStale := by
  have hKeep : sameId lower endpointId ∘ markStale = sameId lower endpointId := by
    funext d
    simp only [Function.comp, sameId, markStale]
    split <;> rfl
  rw [get, get, markStaleAfterLocalIdentityRotation, List.find?_map, hKeep]

/-- Both statuses it can leave keep a record's right to connect. -/
theorem isConnectable_markStale (d : PairedDevice) :
    (markStale d).pairingStatus.isConnectable = d.pairingStatus.isConnectable := by
  unfold markStale
  split
  · next h => simp [h, PairingStatus.isConnectable]
  · rfl

end PairedDeviceStore

namespace StoreOp

variable {lower : String → String}

/-- Frame: a call leaves every record with another id as it was. -/
theorem get_apply_other {op : StoreOp} {other : String}
    (hOther : lower other ≠ lower op.endpointId) (file : List PairedDevice) :
    PairedDeviceStore.get lower (op.apply lower file) other =
      PairedDeviceStore.get lower file other := by
  have hFrame (change : PairedDevice → PairedDevice)
      (hKeep : ∀ d, (change d).endpointId = d.endpointId) :=
    PairedDeviceStore.get_modify_other change hKeep hOther file
  cases op with
  | remember device => exact PairedDeviceStore.get_remember_other hOther file
  | forget endpointId => exact PairedDeviceStore.get_forget_other hOther file
  | rename endpointId displayName =>
      cases hGet : PairedDeviceStore.get lower file endpointId with
      | none => simp [apply, run, hGet]
      | some d =>
          simpa [apply, run, hGet, StoreOp.endpointId] using
            hFrame (fun d => { d with displayName := displayName }) fun _ => rfl
  | touch endpointId lastSeenAt =>
      cases hGet : PairedDeviceStore.get lower file endpointId with
      | none => simp [apply, run, hGet]
      | some d =>
          simpa [apply, run, hGet, StoreOp.endpointId, PairedDeviceStore.touch] using
            hFrame (fun d => { d with lastSeenAt := lastSeenAt }) fun _ => rfl
  | markUnpairedRemotely endpointId =>
      cases hGet : PairedDeviceStore.get lower file endpointId with
      | none => simp [apply, run, hGet]
      | some d =>
          simpa [apply, run, hGet, StoreOp.endpointId, PairedDeviceStore.markUnpairedRemotely] using
            hFrame (fun d => { d with pairingStatus := .unpairedRemotely }) fun _ => rfl

end StoreOp

end AltSendme
