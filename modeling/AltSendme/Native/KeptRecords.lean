import AltSendme.Native.StoreRecords
import AltSendme.Native.Node

/-! Which devices a list of records lets connect, and what every list the
store writes is like. A call that read one list and replaces another still
leaves the devices it does not decide as they were, when its list is current. -/
namespace AltSendme

variable {Id : Type} [EndpointKeys Id]
open EndpointKeys (toStr fromStr)

namespace PairedDeviceStore

/-- The store holds a record for this id, and its status is connectable. -/
def connectableAt (file : List PairedDevice) (endpointId : String) : Bool :=
  (get String.toLowercase file endpointId).any (·.pairingStatus.isConnectable)

theorem connectableAt_congr {left right : String} (h : left.toLowercase = right.toLowercase)
    (file : List PairedDevice) : connectableAt file left = connectableAt file right := by
  rw [connectableAt, get_congr h, connectableAt]

theorem connectableAt_markStale (file : List PairedDevice) (endpointId : String) :
    connectableAt (markStaleAfterLocalIdentityRotation file) endpointId =
      connectableAt file endpointId := by
  rw [connectableAt, get_markStaleAfterLocalIdentityRotation, Option.any_map, connectableAt]
  congr 1
  funext d
  exact isConnectable_markStale d

/-- What every list the store writes is like: one record for each id, and each
id a device's own. -/
structure Kept (Id : Type) [EndpointKeys Id] (file : List PairedDevice) : Prop where
  distinct : DistinctIds String.toLowercase file
  named : ∀ d ∈ file, ∃ id : Id, d.endpointId = toStr id

theorem kept_nil : Kept Id [] := ⟨distinctIds_nil, nofun⟩

theorem Kept.markStale {file : List PairedDevice} (h : Kept Id file) :
    Kept Id (markStaleAfterLocalIdentityRotation file) := by
  refine ⟨h.distinct.markStale, ?_⟩
  intro d hd
  obtain ⟨old, hOld, rfl⟩ := List.mem_map.mp hd
  have hSame : (PairedDeviceStore.markStale old).endpointId = old.endpointId := by
    unfold PairedDeviceStore.markStale
    split <;> rfl
  rw [hSame]
  exact h.named old hOld

/-- With one record for each id, the record found is any record of that id. -/
theorem DistinctIds.get_of_mem {lower : String → String} {file : List PairedDevice}
    (h : DistinctIds lower file) {d : PairedDevice} (hd : d ∈ file) :
    get lower file d.endpointId = some d := by
  cases hGet : get lower file d.endpointId with
  | none => exact absurd (List.mem_map_of_mem hd) (notMem_of_get_eq_none hGet)
  | some found =>
      obtain ⟨hFound, hSame⟩ := get_eq_some hGet
      rw [List.inj_on_of_nodup_map h hFound hd hSame]

/-- A start allows exactly the connectable devices of the store. -/
theorem Kept.mem_loadAllowedFromStore [DecidableEq Id] {file : List PairedDevice}
    (h : Kept Id file) {id : Id} :
    id ∈ loadAllowedFromStore file ↔ connectableAt file (toStr id) = true := by
  rw [loadAllowedFromStore, List.mem_toFinset, List.mem_filterMap, connectableAt, Option.any_eq_true]
  constructor
  · rintro ⟨d, hd, hParsed⟩
    split at hParsed
    · next hConnectable =>
        obtain ⟨owner, hOwner⟩ := h.named d hd
        rw [hOwner, fromStr_toStr, Option.some.injEq] at hParsed
        rw [← hParsed, ← hOwner]
        exact ⟨d, h.distinct.get_of_mem hd, hConnectable⟩
    · cases hParsed
  · rintro ⟨d, hGet, hConnectable⟩
    obtain ⟨hd, hSame⟩ := get_eq_some hGet
    obtain ⟨owner, hOwner⟩ := h.named d hd
    rw [hOwner, toStr_toLowercase, toStr_toLowercase, toStr_inj] at hSame
    refine ⟨d, hd, ?_⟩
    rw [if_pos hConnectable, hOwner, hSame, fromStr_toStr]

end PairedDeviceStore

namespace StoreOp
open PairedDeviceStore

/-- The call settles whether its own device may connect, whatever was there. -/
def decides : StoreOp → Bool
  | .remember _ | .forget _ | .markUnpairedRemotely _ => true
  | .rename _ _ | .touch _ _ => false

/-- The list this call read says of the device what the file says now, unless
the call itself decides it. -/
def CurrentFor (op : StoreOp) (base file : List PairedDevice) (endpointId : String) : Prop :=
  (op.decides = true ∧ endpointId.toLowercase = op.endpointId.toLowercase) ∨
    connectableAt base endpointId = connectableAt file endpointId

instance (op : StoreOp) (base file : List PairedDevice) (endpointId : String) :
    Decidable (op.CurrentFor base file endpointId) := by
  unfold CurrentFor
  infer_instance

theorem CurrentFor.congr {op : StoreOp} {base file : List PairedDevice} {left right : String}
    (h : op.CurrentFor base file left) (hSame : left.toLowercase = right.toLowercase) :
    op.CurrentFor base file right := by
  rw [CurrentFor, ← hSame, ← connectableAt_congr hSame base, ← connectableAt_congr hSame file]
  exact h

/-- Only the records of the two lists need to be compared. -/
theorem currentFor_of_records {op : StoreOp} {base file : List PairedDevice} {endpointId : String}
    (h : ∀ d ∈ base ++ file, d.endpointId.toLowercase = endpointId.toLowercase →
      op.CurrentFor base file d.endpointId) : op.CurrentFor base file endpointId := by
  cases hBase : get String.toLowercase base endpointId with
  | some d =>
      obtain ⟨hd, hSame⟩ := get_eq_some hBase
      exact (h d (List.mem_append_left file hd) hSame).congr hSame
  | none =>
      cases hFile : get String.toLowercase file endpointId with
      | some d =>
          obtain ⟨hd, hSame⟩ := get_eq_some hFile
          exact (h d (List.mem_append_right base hd) hSame).congr hSame
      | none =>
          refine Or.inr ?_
          rw [connectableAt, connectableAt, hBase, hFile]

/-- A write leaves a device it does not decide as the file has it. -/
theorem CurrentFor.apply {op : StoreOp} {base file : List PairedDevice} {endpointId : String}
    (h : op.CurrentFor base file endpointId)
    (hOther : op.decides = true → endpointId.toLowercase ≠ op.endpointId.toLowercase) :
    connectableAt (op.apply String.toLowercase base) endpointId = connectableAt file endpointId := by
  have hSame := h.resolve_left fun hOwn => hOther hOwn.1 hOwn.2
  rw [← hSame, connectableAt, connectableAt]
  by_cases hOwn : endpointId.toLowercase = op.endpointId.toLowercase
  · rw [get_apply_same hOwn]
    cases op with
    | rename | touch => rw [effect, Option.any_map]
    | remember | forget | markUnpairedRemotely => exact absurd hOwn (hOther rfl)
  · rw [get_apply_other hOwn]

theorem connectableAt_forget {text endpointId : String}
    (hOwn : endpointId.toLowercase = text.toLowercase) (base : List PairedDevice) :
    connectableAt ((forget text).apply String.toLowercase base) endpointId = false := by
  have hGone := @get_apply_same String.toLowercase (.forget text) endpointId hOwn base
  rw [connectableAt, hGone, effect, Option.any_none]

/-- The records of a written list carry the ids of the list read, and the id
of a new device. -/
theorem kept_apply {op : StoreOp} {base : List PairedDevice} (hBase : Kept Id base)
    (hNamed : ∀ device, op = .remember device → ∃ id : Id, device.endpointId = toStr id) :
    Kept Id (op.apply String.toLowercase base) := by
  refine ⟨distinctIds_apply hBase.distinct op, ?_⟩
  rcases op.apply_cases base with ⟨device, rfl, hEq⟩ | ⟨hEq, _⟩ | ⟨hEq, _, _⟩ |
    ⟨change, hKeep, hEq, _⟩
  · rw [hEq]
    exact forall_mem_remember (fun _ hd => hd) (hNamed device rfl) hBase.named
  · rw [hEq]
    intro d hd
    exact hBase.named d (List.mem_filter.mp hd).1
  · rw [hEq]
    exact hBase.named
  · rw [hEq]
    exact forall_mem_modify (fun d hd => hKeep d ▸ hd) hBase.named

end StoreOp

end AltSendme
