import AltSendme.Native.DeviceStore
import Mathlib.Data.List.Nodup
import Mathlib.Data.List.Forall2

/-! The paired device store as a map from ids to records. The file is a list
searched by lowercased id; a sequence of calls acts on it as the same calls
act, key by key, on a partial function. -/
namespace AltSendme

/-- A call that may replace the file: one device's, or the identity rotation's. -/
inductive StoreCall where
  | one (op : StoreOp)
  | markStaleAfterLocalIdentityRotation
  deriving DecidableEq, Repr

/-- The record of a known device once it is remembered again, field by field: who it
is and when it was paired stay, everything else is taken from the new record, but a
relay only where the new record has one. -/
def PairedDevice.remembered (device known : PairedDevice) : PairedDevice where
  endpointId := known.endpointId
  displayName := device.displayName
  deviceType := device.deviceType
  os := device.os
  pairedAt := known.pairedAt
  lastSeenAt := device.lastSeenAt
  relayUrl := device.relayUrl.or known.relayUrl
  pairingStatus := .active

/-- The record of a device once this device has a new identity. -/
def PairedDevice.afterRotation (d : PairedDevice) : PairedDevice :=
  { d with
    pairingStatus := match d.pairingStatus with
      | .active => .staleLocalIdentity
      | status => status }

/-- What is to become of the record kept under a call's own id. This is the
specification, which says of each field what it will be and uses nothing of the store. -/
def StoreOp.effect (record : Option PairedDevice) : StoreOp → Option PairedDevice
  | .remember device => some (record.elim device device.remembered)
  | .rename _ displayName => record.map fun d => { d with displayName := displayName }
  | .forget _ => none
  | .touch _ lastSeenAt => record.map fun d => { d with lastSeenAt := lastSeenAt }
  | .markUnpairedRemotely _ => record.map fun d => { d with pairingStatus := .unpairedRemotely }

namespace StoreCall
variable (lower : String → String)

/-- The argument of `write_file`, when the call writes. -/
def written (file : List PairedDevice) : StoreCall → Option (List PairedDevice)
  | .one op => (op.run lower file).written
  | .markStaleAfterLocalIdentityRotation =>
      if file.any (·.pairingStatus = .active) then
        some (PairedDeviceStore.markStaleAfterLocalIdentityRotation file)
      else none

def apply (file : List PairedDevice) (call : StoreCall) : List PairedDevice :=
  (call.written lower file).getD file

/-- The file after the calls have run one after another. -/
def applyAll (file : List PairedDevice) (calls : List StoreCall) : List PairedDevice :=
  calls.foldl (apply lower) file

/-- What is to become of the record kept under `key`, a lowercased id. -/
def effect (key : String) (record : Option PairedDevice) : StoreCall → Option PairedDevice
  | .one op => if lower op.endpointId = key then op.effect record else record
  | .markStaleAfterLocalIdentityRotation => record.map PairedDevice.afterRotation

/-- The call can change the record kept under `key`. -/
def concerns (key : String) : StoreCall → Bool
  | .one op => lower op.endpointId = key
  | .markStaleAfterLocalIdentityRotation => true

/-- What a call leaves alone: the records with another id, in their order, or
everything but the status of the active records, which it makes stale. -/
def Frames (file file' : List PairedDevice) : StoreCall → Prop
  | .one op =>
      (file'.filter fun d => !PairedDeviceStore.sameId lower op.endpointId d) =
        file.filter fun d => !PairedDeviceStore.sameId lower op.endpointId d
  | .markStaleAfterLocalIdentityRotation =>
      List.Forall₂ (fun old new =>
        (old.pairingStatus = .active → new = { old with pairingStatus := .staleLocalIdentity }) ∧
          (old.pairingStatus ≠ .active → new = old)) file file'

end StoreCall

namespace PairedDeviceStore
variable {lower : String → String}

/-- The representation invariant: no two records with one id. -/
def DistinctIds (lower : String → String) (file : List PairedDevice) : Prop :=
  (file.map fun d => lower d.endpointId).Nodup

theorem distinctIds_nil : DistinctIds lower [] := List.nodup_nil

/-- A change that keeps the ids keeps the list of ids. -/
theorem map_modify {endpointId : String} {change : PairedDevice → PairedDevice}
    (hKeep : ∀ d, (change d).endpointId = d.endpointId) (file : List PairedDevice) :
    ((modify lower endpointId change file).map fun d => lower d.endpointId) =
      file.map fun d => lower d.endpointId := by
  induction file with
  | nil => rfl
  | cons d rest ih =>
      rw [modify, List.replaceF]
      cases hd : sameId lower endpointId d with
      | false => simpa [modify] using ih
      | true => simp [hKeep]

/-- A change leaves the records of all other ids as they are. -/
theorem filter_modify {endpointId : String} {change : PairedDevice → PairedDevice}
    (hKeep : ∀ d, (change d).endpointId = d.endpointId) (file : List PairedDevice) :
    ((modify lower endpointId change file).filter fun d => !sameId lower endpointId d) =
      file.filter fun d => !sameId lower endpointId d := by
  induction file with
  | nil => rfl
  | cons d rest ih =>
      rw [modify, List.replaceF]
      cases hd : sameId lower endpointId d with
      | false => simpa [hd, modify] using ih
      | true => simp [hd, sameId_change hKeep]

/-- A missing record: no id of the list is the one asked for. -/
theorem notMem_of_get_eq_none {file : List PairedDevice} {endpointId : String}
    (h : get lower file endpointId = none) :
    lower endpointId ∉ file.map fun d => lower d.endpointId := by
  rw [List.mem_map]
  rintro ⟨d, hMem, hSame⟩
  exact List.find?_eq_none.mp h d hMem (sameId_iff.mpr hSame)

/-- A change that keeps the ids keeps them distinct. -/
theorem DistinctIds.modify {file : List PairedDevice} (h : DistinctIds lower file)
    {endpointId : String} {change : PairedDevice → PairedDevice}
    (hKeep : ∀ d, (change d).endpointId = d.endpointId) :
    DistinctIds lower (PairedDeviceStore.modify lower endpointId change file) := by
  rw [DistinctIds, map_modify hKeep]
  exact h

/-- Remembering a device lists it once. -/
theorem DistinctIds.remember {file : List PairedDevice} (h : DistinctIds lower file)
    (device : PairedDevice) : DistinctIds lower (remember lower device file) := by
  cases hGet : get lower file device.endpointId with
  | some known =>
      simp only [PairedDeviceStore.remember, hGet]
      exact h.modify fun _ => rfl
  | none =>
      simp only [PairedDeviceStore.remember, hGet]
      rw [DistinctIds, List.map_append, List.map_singleton, List.nodup_append]
      refine ⟨h, List.nodup_singleton _, ?_⟩
      intro key hKey new hNew hEq
      rw [List.mem_singleton] at hNew
      exact notMem_of_get_eq_none hGet (hNew ▸ hEq ▸ hKey)

/-- Forgetting a device lists none twice. -/
theorem DistinctIds.forget {file : List PairedDevice} (h : DistinctIds lower file)
    (endpointId : String) : DistinctIds lower (forget lower endpointId file) :=
  List.Nodup.sublist (List.filter_sublist.map _) h

/-- Marking records stale lists none twice. -/
theorem DistinctIds.markStale {file : List PairedDevice} (h : DistinctIds lower file) :
    DistinctIds lower (markStaleAfterLocalIdentityRotation file) := by
  have hKeep : (fun d => lower d.endpointId) ∘ PairedDeviceStore.markStale =
      fun d => lower d.endpointId := by
    funext d
    simp only [Function.comp, PairedDeviceStore.markStale]
    split <;> rfl
  rw [DistinctIds, markStaleAfterLocalIdentityRotation, List.map_map, hKeep]
  exact h

/-- Remembering a device leaves the records of all others as they are. -/
theorem filter_remember (device : PairedDevice) (file : List PairedDevice) :
    ((remember lower device file).filter fun d => !sameId lower device.endpointId d) =
      file.filter fun d => !sameId lower device.endpointId d := by
  cases hGet : get lower file device.endpointId with
  | some known =>
      simp only [remember, hGet]
      have hKeep (d : PairedDevice) : (merge device d).endpointId = d.endpointId := rfl
      exact filter_modify hKeep file
  | none =>
      simp only [remember, hGet]
      rw [List.filter_append]
      simp [sameId]

/-- Forgetting a device leaves the records of all others as they are. -/
theorem filter_forget (endpointId : String) (file : List PairedDevice) :
    ((forget lower endpointId file).filter fun d => !sameId lower endpointId d) =
      file.filter fun d => !sameId lower endpointId d := by
  rw [forget, List.filter_filter]
  simp

/-- The assignments of `remember` leave the record that is specified. -/
theorem merge_eq (device known : PairedDevice) : merge device known = device.remembered known := by
  unfold merge PairedDevice.remembered
  cases device.relayUrl with
  | none => rfl
  | some url => rfl

/-- The code marks a record as the specification does. -/
theorem markStale_eq (d : PairedDevice) : markStale d = d.afterRotation := by
  unfold markStale PairedDevice.afterRotation
  obtain ⟨endpointId, displayName, deviceType, os, pairedAt, lastSeenAt, relayUrl, status⟩ := d
  cases status with
  | active => rfl
  | unpairedRemotely => rfl
  | staleLocalIdentity => rfl

/-- With no active record there is nothing to mark. -/
theorem markStaleAfterLocalIdentityRotation_of_none {file : List PairedDevice}
    (h : (file.any (·.pairingStatus = .active)) = false) :
    markStaleAfterLocalIdentityRotation file = file := by
  rw [markStaleAfterLocalIdentityRotation]
  conv_rhs => rw [← List.map_id file]
  apply List.map_congr_left
  intro d hd
  have hIdle := List.any_eq_false.mp h d hd
  rw [markStale, if_neg (by simpa using hIdle)]
  rfl

end PairedDeviceStore

namespace StoreOp
variable {lower : String → String}
open PairedDeviceStore

/-- How a call changes the file: the three ways of changing one record. -/
theorem apply_cases (op : StoreOp) (file : List PairedDevice) :
    (∃ device, op = .remember device ∧ op.apply lower file = PairedDeviceStore.remember lower device file) ∨
      op.apply lower file = PairedDeviceStore.forget lower op.endpointId file ∧ op = .forget op.endpointId ∨
      op.apply lower file = file ∧ get lower file op.endpointId = none ∧
        op.effect none = none ∨
      ∃ change : PairedDevice → PairedDevice, (∀ d, (change d).endpointId = d.endpointId) ∧
        op.apply lower file = modify lower op.endpointId change file ∧
        ∀ record, op.effect record = record.map change := by
  cases op with
  | remember device => exact Or.inl ⟨device, rfl, rfl⟩
  | forget endpointId => exact Or.inr (Or.inl ⟨rfl, rfl⟩)
  | rename endpointId displayName =>
      cases hGet : get lower file endpointId with
      | none => exact Or.inr (Or.inr (Or.inl ⟨by simp [apply, run, hGet], hGet, rfl⟩))
      | some d =>
          refine Or.inr (Or.inr (Or.inr
            ⟨fun d => { d with displayName := displayName }, fun _ => rfl, ?_, fun _ => rfl⟩))
          simp only [apply, run, hGet]
          rfl
  | touch endpointId lastSeenAt =>
      cases hGet : get lower file endpointId with
      | none => exact Or.inr (Or.inr (Or.inl ⟨by simp [apply, run, hGet], hGet, rfl⟩))
      | some d =>
          refine Or.inr (Or.inr (Or.inr
            ⟨fun d => { d with lastSeenAt := lastSeenAt }, fun _ => rfl, ?_, fun _ => rfl⟩))
          simp only [apply, run, hGet]
          rfl
  | markUnpairedRemotely endpointId =>
      cases hGet : get lower file endpointId with
      | none => exact Or.inr (Or.inr (Or.inl ⟨by simp [apply, run, hGet], hGet, rfl⟩))
      | some d =>
          refine Or.inr (Or.inr (Or.inr
            ⟨fun d => { d with pairingStatus := .unpairedRemotely }, fun _ => rfl, ?_, fun _ => rfl⟩))
          simp only [apply, run, hGet]
          rfl

theorem distinctIds_apply {file : List PairedDevice} (h : DistinctIds lower file)
    (op : StoreOp) : DistinctIds lower (op.apply lower file) := by
  rcases op.apply_cases file with ⟨device, _, hEq⟩ | ⟨hEq, _⟩ | ⟨hEq, _, _⟩ |
    ⟨change, hKeep, hEq, _⟩
  · rw [hEq]
    exact h.remember device
  · rw [hEq]
    exact h.forget _
  · rw [hEq]
    exact h
  · rw [hEq]
    exact h.modify hKeep

/-- Every operation leaves the records of other ids as they are, in their order. -/
theorem filter_apply (op : StoreOp) (file : List PairedDevice) :
    ((op.apply lower file).filter fun d => !sameId lower op.endpointId d) =
      file.filter fun d => !sameId lower op.endpointId d := by
  rcases op.apply_cases file with ⟨device, rfl, hEq⟩ | ⟨hEq, _⟩ | ⟨hEq, _, _⟩ |
    ⟨change, hKeep, hEq, _⟩
  · rw [hEq]
    exact filter_remember device file
  · rw [hEq]
    exact filter_forget _ file
  · rw [hEq]
  · rw [hEq]
    exact filter_modify hKeep file

/-- On its own id a call acts as its effect does on the one record. -/
theorem get_apply_same {op : StoreOp} {id : String}
    (hSame : lower id = lower op.endpointId) (file : List PairedDevice) :
    get lower (op.apply lower file) id = op.effect (get lower file id) := by
  rcases op.apply_cases file with ⟨device, rfl, hEq⟩ | ⟨hEq, hForget⟩ | ⟨hEq, hNone, hEffect⟩ |
    ⟨change, hKeep, hEq, hEffect⟩
  · rw [hEq, get_remember_same hSame file]
    cases get lower file id with
    | none => rfl
    | some known => exact congrArg some (merge_eq device known)
  · rw [hEq, hForget]
    exact get_forget_same hSame file
  · rw [hEq, get_congr hSame, hNone, hEffect]
  · rw [hEq, hEffect]
    exact get_modify_same change hKeep hSame file

end StoreOp

namespace StoreCall
variable {lower : String → String}
open PairedDeviceStore

theorem apply_one (op : StoreOp) (file : List PairedDevice) :
    apply lower file (.one op) = op.apply lower file := rfl

theorem apply_markStale (file : List PairedDevice) :
    apply lower file .markStaleAfterLocalIdentityRotation =
      PairedDeviceStore.markStaleAfterLocalIdentityRotation file := by
  cases hAny : file.any (·.pairingStatus = .active) with
  | true => simp [apply, written, hAny]
  | false =>
      rw [markStaleAfterLocalIdentityRotation_of_none hAny]
      simp [apply, written, hAny]

theorem distinctIds_apply {file : List PairedDevice} (h : DistinctIds lower file)
    (call : StoreCall) : DistinctIds lower (apply lower file call) := by
  cases call with
  | one op => exact StoreOp.distinctIds_apply h op
  | markStaleAfterLocalIdentityRotation =>
      rw [apply_markStale]
      exact h.markStale

/-- Any sequence of calls keeps the ids distinct. -/
theorem distinctIds_applyAll {file : List PairedDevice} (h : DistinctIds lower file)
    (calls : List StoreCall) : DistinctIds lower (applyAll lower file calls) := by
  induction calls generalizing file with
  | nil => exact h
  | cons call calls ih => exact ih (distinctIds_apply h call)

/-- A call changes only the records it concerns. -/
theorem frames_apply (file : List PairedDevice) (call : StoreCall) :
    call.Frames lower file (apply lower file call) := by
  cases call with
  | one op => exact StoreOp.filter_apply op file
  | markStaleAfterLocalIdentityRotation =>
      rw [apply_markStale, Frames, PairedDeviceStore.markStaleAfterLocalIdentityRotation,
        List.forall₂_map_right_iff]
      refine List.forall₂_same.mpr fun d _ => ⟨fun hActive => ?_, fun hOther => ?_⟩
      · rw [markStale, if_pos hActive]
      · rw [markStale, if_neg hOther]

/-- After a call, the record of an id is what the specification makes of the one before. -/
theorem get_apply (id : String) (file : List PairedDevice) (call : StoreCall) :
    get lower (apply lower file call) id = call.effect lower (lower id) (get lower file id) := by
  cases call with
  | one op =>
      by_cases hSame : lower op.endpointId = lower id
      · rw [apply_one, effect, if_pos hSame]
        exact StoreOp.get_apply_same hSame.symm file
      · rw [apply_one, effect, if_neg hSame]
        exact StoreOp.get_apply_other (Ne.symm hSame) file
  | markStaleAfterLocalIdentityRotation =>
      have hMark : markStale = PairedDevice.afterRotation := funext markStale_eq
      rw [apply_markStale, get_markStaleAfterLocalIdentityRotation, hMark]
      rfl

/-- A call that does not concern a key leaves its record alone. -/
theorem effect_of_not_concerns {key : String} {call : StoreCall}
    (h : call.concerns lower key = false) (record : Option PairedDevice) :
    call.effect lower key record = record := by
  cases call with
  | one op =>
      rw [effect, if_neg]
      simpa [concerns] using h
  | markStaleAfterLocalIdentityRotation => cases h

/-- After any calls, the record of an id is what those that concern it make of the one
before. -/
theorem get_applyAll (id : String) (file : List PairedDevice) (calls : List StoreCall) :
    get lower (applyAll lower file calls) id =
      (calls.filter (·.concerns lower (lower id))).foldl (effect lower (lower id))
        (get lower file id) := by
  induction calls generalizing file with
  | nil => rfl
  | cons call calls ih =>
      have hRest := ih (apply lower file call)
      rw [get_apply] at hRest
      cases hCall : call.concerns lower (lower id) with
      | true =>
          rw [List.filter_cons_of_pos (by simpa using hCall)]
          exact hRest
      | false =>
          rw [effect_of_not_concerns hCall] at hRest
          rw [List.filter_cons_of_neg (by simp [hCall])]
          exact hRest

/-- What a call makes of the record that is kept under its own id. -/
theorem get_apply_own (file : List PairedDevice) (op : StoreOp) :
    get lower (apply lower file (.one op)) op.endpointId =
      op.effect (get lower file op.endpointId) := by
  rw [get_apply]
  exact if_pos rfl

/-- The store keeps one record an id. Each call changes only what it names. A device
remembered for the first time is kept as it is, and a known one field by field as
`PairedDevice.remembered` says; a new identity makes exactly the active records stale;
and what `get` returns is decided by the calls on that id, in their order. -/
theorem store_represents_records (lower : String → String) (calls : List StoreCall) :
    DistinctIds lower (applyAll lower [] calls) ∧
      (∀ call : StoreCall, call.Frames lower (applyAll lower [] calls)
        (apply lower (applyAll lower [] calls) call)) ∧
      (∀ device, get lower (applyAll lower [] calls) device.endpointId = none →
        get lower (apply lower (applyAll lower [] calls) (.one (.remember device)))
          device.endpointId = some device) ∧
      (∀ device known, get lower (applyAll lower [] calls) device.endpointId = some known →
        ∃ saved, get lower (apply lower (applyAll lower [] calls) (.one (.remember device)))
            device.endpointId = some saved ∧
          saved.endpointId = known.endpointId ∧ saved.pairedAt = known.pairedAt ∧
          saved.displayName = device.displayName ∧ saved.deviceType = device.deviceType ∧
          saved.os = device.os ∧ saved.lastSeenAt = device.lastSeenAt ∧
          saved.pairingStatus = .active ∧
          (device.relayUrl = none → saved.relayUrl = known.relayUrl) ∧
          (device.relayUrl ≠ none → saved.relayUrl = device.relayUrl)) ∧
      (∀ id known, get lower (applyAll lower [] calls) id = some known →
        ∃ marked, get lower (apply lower (applyAll lower [] calls)
            .markStaleAfterLocalIdentityRotation) id = some marked ∧
          (known.pairingStatus = .active →
            marked = { known with pairingStatus := .staleLocalIdentity }) ∧
          (known.pairingStatus ≠ .active → marked = known)) ∧
      ∀ id, get lower (applyAll lower [] calls) id =
        (calls.filter (·.concerns lower (lower id))).foldl (effect lower (lower id)) none := by
  refine ⟨distinctIds_applyAll distinctIds_nil calls, frames_apply _, ?_, ?_, ?_, ?_⟩
  · intro device hUnknown
    have hSaved := @get_apply_own lower (applyAll lower [] calls) (.remember device)
    rw [show (StoreOp.remember device).endpointId = device.endpointId from rfl, hUnknown] at hSaved
    exact hSaved
  · intro device known hKnown
    have hSaved := @get_apply_own lower (applyAll lower [] calls) (.remember device)
    rw [show (StoreOp.remember device).endpointId = device.endpointId from rfl, hKnown] at hSaved
    refine ⟨device.remembered known, hSaved, rfl, rfl, rfl, rfl, rfl, rfl, rfl, ?_, ?_⟩
    · intro hAbsent
      rw [PairedDevice.remembered, hAbsent, Option.none_or]
    · intro hPresent
      obtain ⟨url, hUrl⟩ := Option.ne_none_iff_exists'.mp hPresent
      rw [PairedDevice.remembered, hUrl, Option.some_or]
  · intro id known hKnown
    have hMarked := @get_apply lower id (applyAll lower [] calls)
      .markStaleAfterLocalIdentityRotation
    rw [hKnown] at hMarked
    refine ⟨known.afterRotation, hMarked, fun hActive => ?_, fun hOther => ?_⟩
    · rw [← markStale_eq, markStale, if_pos hActive]
    · rw [← markStale_eq, markStale, if_neg hOther]
  · intro id
    exact get_applyAll id [] calls

end StoreCall

end AltSendme
