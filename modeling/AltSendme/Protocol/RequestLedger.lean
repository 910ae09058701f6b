import AltSendme.Protocol.TransferCompleted
import Mathlib.Data.List.Infix

/-! What one request is judged by. The bytes accounted for it come from its own
`Started` updates, each at the full size of its blob, whatever other requests
do; a blob that is asked for in part counts in full. -/
namespace AltSendme.ProvideProgress
open Execution

/-- A blob of a request, by its index and its size. -/
abbrev Blob := UInt64 × UInt64

/-- The blobs that a request began to send. -/
def startedBlobs : List RequestUpdate → List Blob
  | [] => []
  | .started index size :: us => (index, size) :: startedBlobs us
  | _ :: us => startedBlobs us

/-- The payload among these blobs. -/
def payloadBytes (entryType : String) (blobs : List Blob) : Nat :=
  (blobs.map fun blob =>
    if Request.isMetadataBlob entryType blob.1 then 0 else blob.2.toNat).sum

/-- The bytes accounted for a request that sends these blobs. -/
def accountedFor (total : UInt64) (entryType : String) (blobs : List Blob) : UInt64 :=
  UInt64.ofNat (min (payloadBytes entryType blobs) total.toNat)

def Input.updates : Input → List RequestUpdate
  | .update u => [u]
  | .closed | .go => []

/-- The updates that a request took in a run. -/
def updatesOf (t : Nat) : List Label → List RequestUpdate
  | [] => []
  | ⟨_, .turn u input⟩ :: ls =>
      if u = t then input.updates ++ updatesOf t ls else updatesOf t ls
  | _ :: ls => updatesOf t ls

/-- The blobs started by two streams are those of the first and then those of the second. -/
theorem startedBlobs_append (us vs : List RequestUpdate) :
    startedBlobs (us ++ vs) = startedBlobs us ++ startedBlobs vs := by
  induction us with
  | nil => rfl
  | cons u us ih => cases u <;> simp [startedBlobs, ih]

/-- What a request has read adds up over the run. -/
theorem updatesOf_append (t : Nat) (first second : List Label) :
    updatesOf t (first ++ second) = updatesOf t first ++ updatesOf t second := by
  induction first with
  | nil => rfl
  | cons l ls ih =>
      obtain ⟨now, action⟩ := l
      cases action with
      | turn u input =>
          simp only [List.cons_append, updatesOf, ih]
          split
          · rw [List.append_assoc]
          · rfl
      | message message => exact ih
      | channelClosed => exact ih
      | finish => exact ih

/-- A turn of the request reads its input. -/
theorem updatesOf_turn {t : Nat} {input : Input} {l : Label} (h : l.action = .turn t input) :
    updatesOf t [l] = input.updates := by
  obtain ⟨now, action⟩ := l
  obtain rfl : action = .turn t input := h
  simp [updatesOf]

/-- A turn of another task reads nothing for the request. -/
theorem updatesOf_other {t : Nat} {l : Label} (h : ∀ input, l.action ≠ .turn t input) :
    updatesOf t [l] = [] := by
  obtain ⟨now, action⟩ := l
  cases action with
  | turn u input =>
      have hOther : u ≠ t := by
        rintro rfl
        exact h input rfl
      simp [updatesOf, hOther]
  | message message => rfl
  | channelClosed => rfl
  | finish => rfl

/-- One more blob adds its size, unless it is metadata. -/
theorem payloadBytes_concat (entryType : String) (blobs : List Blob) (index size : UInt64) :
    payloadBytes entryType (blobs ++ [(index, size)]) =
      payloadBytes entryType blobs +
        if Request.isMetadataBlob entryType index then 0 else size.toNat := by
  simp [payloadBytes]

section
variable {p p' : Shared} {r r' : Request} {total : UInt64} {entryType : String} {now : Nat}
  {input : Input} {key other : RequestKey}

/-- What is accounted for are the payload bytes, at most the total. -/
theorem accountedFor_toNat (total : UInt64) (entryType : String) (blobs : List Blob) :
    (accountedFor total entryType blobs).toNat =
      min (payloadBytes entryType blobs) total.toNat := by
  have hTotal := total.toNat_lt
  rw [accountedFor, UInt64.toNat_ofNat']
  omega

theorem Shared.getState_insertState (s : TransferState) :
    (p.insertState key s).getState key = some s := by
  simp [insertState, getState]

theorem Shared.getState_modifyState (change : TransferState → TransferState) :
    (p.modifyState key change).getState key = (p.getState key).map change := by
  simp only [modifyState, getState]
  induction p.transferStates with
  | nil => rfl
  | cons entry rest ih =>
      obtain ⟨k, s⟩ := entry
      by_cases hKey : k = key
      · simp [hKey]
      · simp [hKey, List.lookup_cons, beq_eq_false_iff_ne.mpr (Ne.symm hKey), ih]

/-- A change of one request leaves the others alone. -/
theorem Shared.getState_modifyState_ne (hOther : other ≠ key)
    (change : TransferState → TransferState) :
    (p.modifyState key change).getState other = p.getState other := by
  simp only [modifyState, getState]
  induction p.transferStates with
  | nil => rfl
  | cons entry rest ih =>
      obtain ⟨k, s⟩ := entry
      by_cases hKey : k = key
      · simp [hKey, List.lookup_cons, beq_eq_false_iff_ne.mpr hOther, ih]
      · simp [hKey, List.lookup_cons, ih]

/-- The removal of one request leaves the others alone. -/
theorem Shared.getState_removeState_ne (hOther : other ≠ key) :
    (p.removeState key).getState other = p.getState other := by
  simp only [removeState, getState]
  induction p.transferStates with
  | nil => rfl
  | cons entry rest ih =>
      obtain ⟨k, s⟩ := entry
      by_cases hKey : k = key
      · simp [hKey, List.lookup_cons, beq_eq_false_iff_ne.mpr hOther, ih]
      · simp [hKey, List.lookup_cons, ih]

/-- The insertion of one request leaves the others alone. -/
theorem Shared.getState_insertState_ne (hOther : other ≠ key) (s : TransferState) :
    (p.insertState key s).getState other = p.getState other := by
  have hRemoved := getState_removeState_ne (p := p) hOther
  simp only [removeState, getState] at hRemoved
  simp [insertState, getState, List.lookup_cons, beq_eq_false_iff_ne.mpr hOther, hRemoved]

theorem Shared.getState_emitStarted : p.emitStarted.getState key = p.getState key := by
  rw [emitStarted]
  split <;> rfl

theorem Shared.getState_emitCompleted : p.emitCompleted.getState key = p.getState key := by
  rw [emitCompleted]
  split <;> rfl

/-- A turn leaves the states of other requests alone. -/
theorem Request.turn_getState_ne (hOther : other ≠ r.key)
    (h : r.turn total entryType now p input = some (p', r')) :
    p'.getState other = p.getState other := by
  cases input with
  | update u =>
      simp only [turn] at h
      split at h <;> cases h
      rfl
  | closed =>
      simp only [turn] at h
      split at h <;> cases h
      rfl
  | go =>
      cases hStage : r.stage with
      | receiving => simp [turn, hStage] at h
      | returned => simp [turn, hStage] at h
      | inserting u =>
          simp only [turn, hStage] at h
          cases h
          rw [Shared.getState_emitStarted]
          exact Shared.getState_insertState_ne hOther _
      | accounting index size =>
          simp only [turn, hStage] at h
          cases h
          exact Shared.getState_modifyState_ne hOther _
      | measuring endOffset =>
          simp only [turn, hStage] at h
          split at h <;> cases h <;> exact Shared.getState_modifyState_ne hOther _
      | finishing =>
          simp only [turn, hStage] at h
          cases h
          exact Shared.getState_modifyState_ne hOther _
      | removing bytesSent =>
          simp only [turn, hStage, complete, incomplete] at h
          repeat' split at h
          all_goals cases h
          all_goals exact Shared.getState_removeState_ne hOther
      | aborting =>
          simp only [turn, hStage] at h
          cases h
          split <;> exact Shared.getState_removeState_ne hOther
      | closing =>
          simp only [turn, hStage, complete, incomplete] at h
          repeat' split at h
          all_goals cases h
          all_goals rfl
      | sleeping wakeAt activeBeforeWait resume =>
          simp only [turn, hStage] at h
          split at h <;> cases h
          rfl
      | checkingStates quiet resume =>
          simp only [turn, hStage] at h
          cases h
          rfl
      | checkingLast quiet resume =>
          simp only [turn, hStage] at h
          cases h
          split
          · exact Shared.getState_emitCompleted
          · rfl

/-- A probe's turns leave everything shared alone. -/
theorem Request.Consistent.turn_probe (h : r.Consistent) (hProbe : r.isSizesProbe = true)
    (hTurn : r.turn total entryType now p input = some (p', r')) : p' = p := by
  cases input with
  | update u =>
      simp only [Request.turn] at hTurn
      split at hTurn <;> cases hTurn
      rfl
  | closed =>
      simp only [Request.turn] at hTurn
      split at hTurn <;> cases hTurn
      rfl
  | go => rcases (h.probe hProbe).2 with hStage | hStage <;> simp [Request.turn, hStage] at hTurn

/-- The sum is cut off at the total before it could saturate. -/
theorem saturatingAdd_min_toNat (a b : UInt64) :
    (min (saturatingAdd a b) total).toNat = min (a.toNat + b.toNat) total.toNat := by
  have hTotal := total.toNat_lt
  have hSum := saturatingAdd_toNat a b
  rw [UInt64.toNat_min, hSum]
  omega

/-- What the state of a request says of the blobs it began. -/
structure Ledger (total : UInt64) (entryType : String) (blobs : List Blob)
    (s : TransferState) : Prop where
  totalSize : s.totalSize = total
  accounted : s.accountBlob.accountedPayloadBytes = accountedFor total entryType blobs
  ignored : s.ignoreCurrentBlob = true → payloadBytes entryType blobs = 0

/-- A request starts with nothing accounted for. -/
theorem Ledger.init (now : Nat) (ignoreCurrentBlob : Bool) :
    Ledger total entryType [] (.init now total ignoreCurrentBlob) := by
  refine ⟨rfl, ?_, fun _ => rfl⟩
  cases ignoreCurrentBlob with
  | true => rfl
  | false =>
      apply UInt64.toNat_inj.mp
      rw [accountedFor_toNat]
      exact saturatingAdd_min_toNat 0 0

/-- Progress within a blob moves no finished bytes. -/
theorem Ledger.progressBlob {blobs : List Blob} {s : TransferState}
    (h : Ledger total entryType blobs s) (endOffset : UInt64) :
    Ledger total entryType blobs (s.progressBlob endOffset) := by
  rw [TransferState.progressBlob]
  split
  · exact h
  · next hPayload =>
      refine ⟨h.totalSize, ?_, h.ignored⟩
      have hAccounted := h.accounted
      rw [TransferState.accountBlob, if_neg hPayload] at hAccounted ⊢
      exact hAccounted

/-- The metadata blob is only the first one. -/
theorem Ledger.startBlob {blobs : List Blob} {s : TransferState} {index size : UInt64}
    (h : Ledger total entryType blobs s)
    (hFirst : Request.isMetadataBlob entryType index = true → blobs = []) :
    Ledger total entryType (blobs ++ [(index, size)])
      (s.startBlob now (Request.isMetadataBlob entryType index) size) := by
  have hSize : s.accountBlob.totalSize = total := by
    rw [← h.totalSize, TransferState.accountBlob]
    split <;> rfl
  cases hMetadata : Request.isMetadataBlob entryType index with
  | true =>
      obtain rfl := hFirst hMetadata
      have hNone : payloadBytes entryType ([] ++ [(index, size)]) = 0 := by
        simp [payloadBytes, hMetadata]
      refine ⟨?_, ?_, fun _ => hNone⟩
      · simpa [TransferState.startBlob] using hSize
      · have hAccounted := h.accounted
        simp only [TransferState.startBlob, Bool.not_true, Bool.and_false, Bool.false_eq_true,
          if_false]
        rw [TransferState.accountBlob, if_pos rfl, hAccounted, accountedFor, accountedFor, hNone]
        rfl
  | false =>
      obtain rfl := h.totalSize
      have hMore := payloadBytes_concat entryType blobs index size
      rw [hMetadata] at hMore
      refine ⟨?_, UInt64.toNat_inj.mp ?_, nofun⟩
      · simp only [TransferState.startBlob]
        split <;> exact hSize
      · have hAccounted := congrArg UInt64.toNat h.accounted
        rw [accountedFor_toNat] at hAccounted ⊢
        rw [hMore]
        cases hIgnored : s.ignoreCurrentBlob with
        | true =>
            have hNone := h.ignored hIgnored
            simp only [TransferState.startBlob, TransferState.accountBlob, hIgnored, Bool.not_false,
              Bool.and_true, Bool.false_eq_true, if_true, if_false, saturatingAdd_min_toNat, hNone]
            rfl
        | false =>
            simp only [TransferState.startBlob, TransferState.accountBlob, hIgnored, Bool.not_false,
              Bool.and_true, Bool.false_eq_true, if_false, saturatingAdd_min_toNat]
              at hAccounted ⊢
            rw [hAccounted]
            omega

/-- The update stream has closed before it brought a `Completed`. -/
structure Request.Lost (us : List RequestUpdate) (r : Request) : Prop where
  uncompleted : .completed ∉ us
  notAborted : r.ended ≠ some .aborted
  gone : r.stage = .closing ∨ r.stage = .returned ∨ r.stage.awaited = some .returned

/-- A lost request takes no more updates and stays lost. -/
theorem Request.Lost.turn {us : List RequestUpdate} (hLost : r.Lost us)
    (h : r.turn total entryType now p input = some (p', r')) :
    input.updates = [] ∧ r'.Lost us := by
  have hReceiving : r.stage ≠ .receiving := by
    intro hStage
    have hOver := hLost.gone
    rw [hStage] at hOver
    rcases hOver with hOver | hOver | hOver <;> cases hOver
  cases input with
  | update u => simp [Request.turn, hReceiving] at h
  | closed => simp [Request.turn, hReceiving] at h
  | go =>
      refine ⟨rfl, ?_⟩
      rcases hLost.gone with hStage | hStage | hAwaited
      · simp only [Request.turn, hStage, complete, incomplete] at h
        repeat' split at h
        all_goals cases h
        · exact ⟨hLost.uncompleted, by simp, Or.inr (Or.inr rfl)⟩
        · exact ⟨hLost.uncompleted, by simp, Or.inr (Or.inl rfl)⟩
        · exact ⟨hLost.uncompleted, by simp, Or.inr (Or.inl rfl)⟩
      · simp [Request.turn, hStage] at h
      · cases hStage : r.stage with
        | sleeping wakeAt activeBeforeWait resume =>
            rw [hStage] at hAwaited
            simp only [Request.turn, hStage] at h
            split at h <;> cases h
            exact ⟨hLost.uncompleted, hLost.notAborted, Or.inr (Or.inr hAwaited)⟩
        | checkingStates quiet resume =>
            rw [hStage] at hAwaited
            simp only [Request.turn, hStage] at h
            cases h
            exact ⟨hLost.uncompleted, hLost.notAborted, Or.inr (Or.inr hAwaited)⟩
        | checkingLast quiet resume =>
            rw [hStage] at hAwaited
            simp only [Request.turn, hStage] at h
            cases h
            exact ⟨hLost.uncompleted, hLost.notAborted, Or.inr (Or.inl (Option.some.inj hAwaited))⟩
        | _ =>
            rw [hStage] at hAwaited
            cases hAwaited

/-- The update that was taken and not yet entered. -/
inductive RequestStage.Entering : RequestStage → List RequestUpdate → Prop where
  | receiving : Entering .receiving []
  | accounting (index size : UInt64) : Entering (.accounting index size) [.started index size]
  | measuring (endOffset : UInt64) : Entering (.measuring endOffset) [.progress endOffset]
  | finishing : Entering .finishing [.completed]

/-- How a request that sent these blobs is taken out. -/
def judgement (total : UInt64) (entryType : String) (blobs : List Blob) : RequestEnd :=
  if transferPayloadComplete (accountedFor total entryType blobs) total then
    .complete (accountedFor total entryType blobs)
  else .incomplete

/-- What a stream may bring before its `Completed`. -/
structure Orderly (entryType : String) (body : List RequestUpdate) : Prop where
  nonempty : body ≠ []
  uncompleted : .completed ∉ body
  notAborted : .aborted ∉ body
  metadataFirst : ∀ us index size vs, body = us ++ .started index size :: vs →
    Request.isMetadataBlob entryType index = true → startedBlobs us = []

/-- A request and its state after some of its updates, of a stream that ends
with a `Completed` after `body`. -/
inductive Tracks (total : UInt64) (entryType : String) (body us : List RequestUpdate)
    (entry : Option TransferState) (r : Request) : Prop where
  | fresh (hUpdates : us = []) (hStage : r.stage = .receiving) (hStarted : r.transferStarted = false)
      (hEnded : r.ended = none)
  | inserting (u : RequestUpdate) (hUpdates : us = [u]) (hKind : u ≠ .completed ∧ u ≠ .aborted)
      (hStage : r.stage = .inserting u) (hEnded : r.ended = none)
  | live (s : TransferState) (entered taken : List RequestUpdate) (hUpdates : us = entered ++ taken)
      (hStage : r.stage.Entering taken) (hStarted : r.transferStarted = true)
      (hEnded : r.ended = none) (hOpen : .completed ∉ entered) (hEntry : entry = some s)
      (hLedger : Ledger total entryType (startedBlobs entered) s)
  | removing (hUpdates : us = body ++ [.completed])
      (hStage : r.stage = .removing (accountedFor total entryType (startedBlobs body)))
      (hEnded : r.ended = none)
  | judged (hUpdates : us = body ++ [.completed])
      (hEnded : r.ended = some (judgement total entryType (startedBlobs body)))
  | lost (hLost : r.Lost us)
/-- An update that the stream brings is one of the body, or the `Completed`. -/
theorem Orderly.next {body us : List RequestUpdate} {u : RequestUpdate}
    (hBody : Orderly entryType body) (h : us ++ [u] <+: body ++ [.completed]) :
    (us = body ∧ u = .completed) ∨
      (us ++ [u] <+: body ∧ u ≠ .completed ∧ u ≠ .aborted) := by
  rcases List.prefix_concat_iff.mp h with hWhole | hWithin
  · obtain ⟨hBefore, hLast⟩ := List.append_inj' hWhole rfl
    exact Or.inl ⟨hBefore, List.singleton_inj.mp hLast⟩
  · have hMem : u ∈ body := hWithin.subset (List.mem_append_right _ (List.mem_singleton_self u))
    refine Or.inr ⟨hWithin, ?_, ?_⟩
    · rintro rfl
      exact hBody.uncompleted hMem
    · rintro rfl
      exact hBody.notAborted hMem

/-- The turn of a request that has taken no update. -/
theorem Tracks.turn_fresh {body : List RequestUpdate} (hBody : Orderly entryType body)
    (hPayload : r.isSizesProbe = false) (hStage : r.stage = .receiving)
    (hStarted : r.transferStarted = false) (hEnded : r.ended = none)
    (h : r.turn total entryType now p input = some (p', r'))
    (hPrefix : input.updates <+: body ++ [.completed]) :
    Tracks total entryType body input.updates (p'.getState r.key) r' := by
  cases input with
  | update u =>
      simp only [Request.turn, hStage, if_true, hPayload] at h
      cases h
      rcases @Orderly.next _ _ [] u hBody hPrefix with ⟨hNone, _⟩ | ⟨_, hKind⟩
      · exact absurd hNone.symm hBody.nonempty
      · refine .inserting u rfl hKind ?_ hEnded
        cases u with
        | completed => exact absurd rfl hKind.1
        | aborted => exact absurd rfl hKind.2
        | started index size => simp [Request.afterUpdate, hStarted]
        | progress endOffset => simp [Request.afterUpdate, hStarted]
  | closed =>
      simp only [Request.turn, hStage, if_true, hStarted] at h
      cases h
      refine .lost ⟨List.not_mem_nil, ?_, Or.inr (Or.inl ?_)⟩
      · rw [hEnded]
        simp
      · simp
  | go => simp [Request.turn, hStage] at h

/-- The turn of a request that has entered every update it took. -/
theorem Tracks.turn_receiving {body us : List RequestUpdate} {s : TransferState}
    (hBody : Orderly entryType body) (hPayload : r.isSizesProbe = false)
    (hStage : r.stage = .receiving) (hStarted : r.transferStarted = true) (hEnded : r.ended = none)
    (hOpen : .completed ∉ us) (hEntry : p.getState r.key = some s)
    (hLedger : Ledger total entryType (startedBlobs us) s)
    (h : r.turn total entryType now p input = some (p', r'))
    (hPrefix : us ++ input.updates <+: body ++ [.completed]) :
    Tracks total entryType body (us ++ input.updates) (p'.getState r.key) r' := by
  cases input with
  | update u =>
      simp only [Request.turn, hStage, hPayload, if_true] at h
      cases h
      refine .live s us [u] rfl ?_ hStarted hEnded hOpen hEntry hLedger
      rcases hBody.next hPrefix with ⟨_, rfl⟩ | ⟨_, hKind⟩
      · simpa [Request.afterUpdate, hStarted, hEnded] using .finishing
      · cases u with
        | completed => exact absurd rfl hKind.1
        | aborted => exact absurd rfl hKind.2
        | started index size => simpa [Request.afterUpdate, hStarted] using .accounting index size
        | progress endOffset => simpa [Request.afterUpdate, hStarted] using .measuring endOffset
  | closed =>
      simp only [Request.turn, hStage, if_true, hPayload, hStarted, hEnded] at h
      cases h
      simp only [Input.updates, List.append_nil]
      exact .lost ⟨hOpen, by simp, Or.inl rfl⟩
  | go => simp [Request.turn, hStage] at h

/-- The turn of a request that enters an update. -/
theorem Tracks.turn_entering {body entered taken : List RequestUpdate} {s : TransferState}
    (hBody : Orderly entryType body) (hEntering : r.stage.Entering taken)
    (hBusy : r.stage ≠ .receiving) (hStarted : r.transferStarted = true) (hEnded : r.ended = none)
    (hOpen : .completed ∉ entered) (hEntry : p.getState r.key = some s)
    (hLedger : Ledger total entryType (startedBlobs entered) s)
    (h : r.turn total entryType now p input = some (p', r'))
    (hPrefix : entered ++ taken <+: body ++ [.completed]) :
    input.updates = [] ∧ Tracks total entryType body (entered ++ taken) (p'.getState r.key) r' := by
  cases input with
  | update u => simp [Request.turn, hBusy] at h
  | closed => simp [Request.turn, hBusy] at h
  | go =>
      refine ⟨rfl, ?_⟩
      generalize hStage : r.stage = stage at hEntering
      cases hEntering with
      | receiving => exact absurd hStage hBusy
      | accounting index size =>
          simp only [Request.turn, hStage] at h
          cases h
          rcases hBody.next hPrefix with ⟨_, hKind⟩ | ⟨⟨rest, hRest⟩, hKind, _⟩
          · cases hKind
          · have hFirst (hMetadata : Request.isMetadataBlob entryType index = true) :
                startedBlobs entered = [] := by
              apply hBody.metadataFirst entered index size rest _ hMetadata
              rw [← hRest, List.append_assoc, List.singleton_append]
            refine .live (s.startBlob now (Request.isMetadataBlob entryType index) size)
              (entered ++ [.started index size]) [] (List.append_nil _).symm .receiving hStarted
              hEnded ?_ ?_ ?_
            · simpa using hOpen
            · rw [Shared.getState_modifyState, hEntry]
              rfl
            · rw [startedBlobs_append]
              exact hLedger.startBlob hFirst
      | measuring endOffset =>
          have hNext : Tracks total entryType body (entered ++ [.progress endOffset])
              ((p.modifyState r.key (.progressBlob endOffset)).getState r.key)
              { r with stage := .receiving } := by
            refine .live (s.progressBlob endOffset) (entered ++ [.progress endOffset]) []
              (List.append_nil _).symm .receiving hStarted hEnded ?_ ?_ ?_
            · simpa using hOpen
            · rw [Shared.getState_modifyState, hEntry]
              rfl
            · have hSame : startedBlobs (entered ++ [.progress endOffset]) = startedBlobs entered :=
                (startedBlobs_append _ _).trans (List.append_nil _)
              rw [hSame]
              exact hLedger.progressBlob endOffset
          simp only [Request.turn, hStage] at h
          split at h <;> cases h <;> exact hNext
      | finishing =>
          simp only [Request.turn, hStage] at h
          cases h
          rcases hBody.next hPrefix with ⟨rfl, _⟩ | ⟨_, hKind, _⟩
          · refine .removing rfl ?_ hEnded
            simp only [Shared.accountedBytes, Shared.getState_modifyState, hEntry, Option.map_some,
              Option.getD_some, hLedger.accounted]
          · exact absurd rfl hKind

/-- Whatever other requests do, a request keeps track of its own blobs. -/
theorem Tracks.turn {body us : List RequestUpdate} (hBody : Orderly entryType body)
    (hConsistent : r.Consistent) (hPayload : r.isSizesProbe = false)
    (hTracks : Tracks total entryType body us (p.getState r.key) r)
    (h : r.turn total entryType now p input = some (p', r'))
    (hPrefix : us ++ input.updates <+: body ++ [.completed]) :
    Tracks total entryType body (us ++ input.updates) (p'.getState r.key) r' := by
  cases hTracks with
  | fresh hUpdates hStage hStarted hEnded =>
      subst hUpdates
      exact turn_fresh hBody hPayload hStage hStarted hEnded h hPrefix
  | inserting u hUpdates hKind hStage hEnded =>
      subst hUpdates
      cases input with
      | update u => simp [Request.turn, hStage] at h
      | closed => simp [Request.turn, hStage] at h
      | go =>
          simp only [Request.turn, hStage] at h
          cases h
          refine .live (.init now total u.isProgress) [] [u] rfl ?_ rfl hEnded
            List.not_mem_nil ?_ (.init now _)
          · cases u with
            | completed => exact absurd rfl hKind.1
            | aborted => exact absurd rfl hKind.2
            | started index size => exact .accounting index size
            | progress endOffset => exact .measuring endOffset
          · rw [Shared.getState_emitStarted]
            exact Shared.getState_insertState _
  | live s entered taken hUpdates hStage hStarted hEnded hOpen hEntry hLedger =>
      by_cases hReceiving : r.stage = .receiving
      · obtain rfl : taken = [] := by
          rw [hReceiving] at hStage
          cases hStage
          rfl
        obtain rfl : us = entered := hUpdates.trans (List.append_nil entered)
        exact turn_receiving hBody hPayload hReceiving hStarted hEnded hOpen hEntry hLedger h hPrefix
      · subst hUpdates
        have hWithin := (List.prefix_append _ _).trans hPrefix
        obtain ⟨hNone, hNext⟩ := turn_entering hBody hStage hReceiving hStarted hEnded hOpen hEntry
          hLedger h hWithin
        rwa [hNone, List.append_nil]
  | removing hUpdates hStage hEnded =>
      cases input with
      | update u => simp [Request.turn, hStage] at h
      | closed => simp [Request.turn, hStage] at h
      | go =>
          refine .judged ((List.append_nil us).trans hUpdates) ?_
          simp only [Request.turn, hStage, Request.complete, Request.incomplete] at h
          rw [judgement]
          split at h
          · next hFull =>
              rw [if_pos hFull]
              split at h <;> cases h <;> rfl
          · next hPart =>
              rw [if_neg hPart]
              cases h
              rfl
  | judged hUpdates hEnded =>
      have hNone : input.updates = [] := by
        have hLength := hPrefix.length_le
        rw [List.length_append, hUpdates] at hLength
        exact List.eq_nil_of_length_eq_zero (by omega)
      rw [hNone, List.append_nil]
      exact .judged hUpdates (Request.turn_ended hConsistent h hEnded)
  | lost hLost =>
      obtain ⟨hNone, hNext⟩ := hLost.turn h
      rw [hNone, List.append_nil]
      exact .lost hNext

/-- One step of the run, as one request sees it. -/
theorem step_request {c d : State} {l : Label} (h : step total entryType c l = some d) {u : Nat}
    {q : Request} (hu : c.requests[u]? = some q) :
    ((∀ input, l.action ≠ .turn u input) ∧ d.requests[u]? = some q) ∨
      ∃ input q', l.action = .turn u input ∧
        q.turn total entryType l.now c.shared input = some (d.shared, q') ∧
        d.requests[u]? = some q' := by
  have hLength := (List.getElem?_eq_some_iff.mp hu).1
  rcases step_cases h with ⟨message, hAction, rfl⟩ |
    ⟨t, input, r, r', shared, hAction, hRequest, hTurn, rfl⟩ | ⟨hAction, rfl⟩ | ⟨hAction, _, rfl⟩
  · refine Or.inl ⟨by simp [hAction], ?_⟩
    rcases c.receive_cases l.now message with ⟨hRequests, _⟩ | ⟨key, isSizesProbe, hRequests, _⟩
    · simpa only [hRequests] using hu
    · simp only [hRequests]
      rw [List.getElem?_append_left hLength, hu]
  · by_cases hut : u = t
    · subst hut
      obtain rfl : r = q := Option.some.inj (hRequest.symm.trans hu)
      exact Or.inr ⟨input, r', hAction, hTurn, List.getElem?_set_self hLength⟩
    · refine Or.inl ⟨fun other hSame => ?_, (List.getElem?_set_ne (Ne.symm hut)).trans hu⟩
      cases hAction.symm.trans hSame
      exact hut rfl
  · exact Or.inl ⟨by simp [hAction], hu⟩
  · exact Or.inl ⟨by simp [hAction], hu⟩

/-- A request arrives as a fresh one. -/
theorem step_arrives {c d : State} {l : Label} (h : step total entryType c l = some d) {u : Nat}
    (hu : c.requests[u]? = none) :
    (∀ input, l.action ≠ .turn u input) ∧
      (d.requests[u]? = none ∨
        ∃ key isSizesProbe, d.requests[u]? = some (.fresh key isSizesProbe)) := by
  have hLength := List.getElem?_eq_none_iff.mp hu
  rcases step_cases h with ⟨message, hAction, rfl⟩ |
    ⟨t, input, r, r', shared, hAction, hRequest, hTurn, rfl⟩ | ⟨hAction, rfl⟩ | ⟨hAction, _, rfl⟩
  · refine ⟨by simp [hAction], ?_⟩
    rcases c.receive_cases l.now message with ⟨hRequests, _⟩ | ⟨key, isSizesProbe, hRequests, _⟩
    · exact Or.inl (by simpa only [hRequests] using hu)
    · simp only [hRequests]
      rcases Nat.lt_or_eq_of_le hLength with hLess | rfl
      · exact Or.inl (List.getElem?_eq_none (by simp; omega))
      · exact Or.inr ⟨key, isSizesProbe, by simp⟩
  · refine ⟨fun other hSame => ?_, Or.inl (List.getElem?_eq_none (by simpa using hLength))⟩
    cases hAction.symm.trans hSame
    rw [hu] at hRequest
    cases hRequest
  · exact ⟨by simp [hAction], Or.inl hu⟩
  · exact ⟨by simp [hAction], Or.inl hu⟩

/-- Where a request is from: it has just arrived, was there, or took the turn. -/
theorem step_origin {c d : State} {l : Label} (h : step total entryType c l = some d) {u : Nat}
    {q : Request} (hu : d.requests[u]? = some q) :
    (∃ key isSizesProbe, q = .fresh key isSizesProbe) ∨
      (c.requests[u]? = some q ∧ ∀ input, l.action ≠ .turn u input) ∨
        ∃ input r, c.requests[u]? = some r ∧ l.action = .turn u input ∧
          r.turn total entryType l.now c.shared input = some (d.shared, q) := by
  cases hBefore : c.requests[u]? with
  | none =>
      rcases (step_arrives h hBefore).2 with hNone | ⟨key, isSizesProbe, hFresh⟩
      · rw [hNone] at hu
        cases hu
      · exact Or.inl ⟨key, isSizesProbe, Option.some.inj (hu.symm.trans hFresh)⟩
  | some r =>
      rcases step_request h hBefore with ⟨hQuiet, hKept⟩ | ⟨input, q', hAction, hTurn, hMoved⟩
      · exact Or.inr (Or.inl ⟨hKept.symm.trans hu, hQuiet⟩)
      · obtain rfl : q' = q := Option.some.inj (hMoved.symm.trans hu)
        exact Or.inr (Or.inr ⟨input, r, rfl, hAction, hTurn⟩)

/-- A request keeps its place, its key and its kind. -/
theorem step_named {c d : State} {l : Label} (h : step total entryType c l = some d) {u : Nat}
    {q : Request} (hu : c.requests[u]? = some q) :
    ∃ q', d.requests[u]? = some q' ∧ q'.key = q.key ∧ q'.isSizesProbe = q.isSizesProbe := by
  rcases step_request h hu with ⟨_, hKept⟩ | ⟨input, q', _, hTurn, hMoved⟩
  · exact ⟨q, hKept, rfl, rfl⟩
  · exact ⟨q', hMoved, Request.turn_key hTurn⟩

/-- A message of the provider touches no request's state. -/
theorem State.receive_getState (c : State) (message : ProviderMessage) :
    (c.receive now message).shared.getState key = c.shared.getState key := by
  cases message with
  | clientConnected endpointId => cases endpointId <;> rfl
  | connectionClosed => rfl
  | getRequestReceived key isSizesProbe => cases isSizesProbe <;> rfl
  | other => rfl

/-- The check at the end touches no request's state. -/
theorem Shared.finish_getState : p.finish.getState key = p.getState key := by
  rw [finish]
  split
  · exact getState_emitCompleted
  · rfl

/-- The state of a request changes only with its own turns. -/
theorem step_getState {c d : State} {l : Label} (hBalanced : Balanced c)
    (h : step total entryType c l = some d)
    (hOthers : ∀ t input q, l.action = .turn t input → c.requests[t]? = some q →
      q.isSizesProbe = true ∨ q.key ≠ key) :
    d.shared.getState key = c.shared.getState key := by
  rcases step_cases h with ⟨message, _, rfl⟩ |
    ⟨t, input, r, r', shared, hAction, hRequest, hTurn, rfl⟩ | ⟨_, rfl⟩ | ⟨_, _, rfl⟩
  · exact c.receive_getState message
  · rcases hOthers t input r hAction hRequest with hProbe | hKey
    · have hConsistent := hBalanced.consistent r (List.mem_of_getElem? hRequest)
      exact congrArg (fun p => p.getState key) (hConsistent.turn_probe hProbe hTurn)
    · exact Request.turn_getState_ne (Ne.symm hKey) hTurn
  · rfl
  · exact Shared.finish_getState

/-- No other payload request has the key of this one. -/
def OwnKey (t : Nat) (c : State) : Prop :=
  ∀ r u q, c.requests[t]? = some r → c.requests[u]? = some q → u ≠ t →
    q.isSizesProbe = true ∨ q.key ≠ r.key

instance (t : Nat) (c : State) : Decidable (OwnKey t c) :=
  decidable_of_iff (∀ r ∈ c.requests[t]?, ∀ u (hu : u < c.requests.length), u ≠ t →
      c.requests[u].isSizesProbe = true ∨ c.requests[u].key ≠ r.key) (by
    constructor
    · intro h r u q hr hq hut
      obtain ⟨hu, rfl⟩ := List.getElem?_eq_some_iff.mp hq
      exact h r hr u hu hut
    · intro h r hr u hu hut
      exact h r u _ hr (List.getElem?_eq_getElem hu) hut)

/-- A request that has its key to itself had it before the step too. -/
theorem OwnKey.before {c d : State} {t : Nat} {l : Label} (h : OwnKey t d)
    (hStep : step total entryType c l = some d) : OwnKey t c := by
  intro r u q hr hq hut
  obtain ⟨r', hr', hKey, _⟩ := step_named hStep hr
  obtain ⟨q', hq', hKey', hKind⟩ := step_named hStep hq
  rw [← hKey, ← hKey', ← hKind]
  exact h r' u q' hr' hq' hut

/-- The state of a request with its own key waits for its own turns. -/
theorem OwnKey.getState {c d : State} {t : Nat} {l : Label} (h : OwnKey t c)
    (hBalanced : Balanced c) (hStep : step total entryType c l = some d)
    (hRequest : c.requests[t]? = some r) (hQuiet : ∀ input, l.action ≠ .turn t input) :
    d.shared.getState r.key = c.shared.getState r.key := by
  apply step_getState hBalanced hStep
  intro u input q hAction hq
  refine h r u q hRequest hq ?_
  rintro rfl
  exact hQuiet input hAction

/-- A payload request, with a key of its own, whose stream brings these updates. -/
structure Follows (t : Nat) (body : List RequestUpdate) (ls : List Label) (c : State) : Prop where
  payload : ∀ r, c.requests[t]? = some r → r.isSizesProbe = false
  ownKey : ∀ r u q, c.requests[t]? = some r → c.requests[u]? = some q → u ≠ t →
    q.isSizesProbe = true ∨ q.key ≠ r.key
  brought : updatesOf t ls <+: body ++ [.completed]

/-- A stream that follows the body did so before the step too. -/
theorem Follows.before {c d : State} {t : Nat} {body : List RequestUpdate} {ls : List Label}
    {l : Label} (h : Follows t body (ls ++ [l]) d) (hStep : step total entryType c l = some d) :
    Follows t body ls c := by
  refine ⟨fun r hr => ?_, OwnKey.before h.ownKey hStep, ?_⟩
  · obtain ⟨r', hr', _, hKind⟩ := step_named hStep hr
    exact hKind ▸ h.payload r' hr'
  · have hBrought := h.brought
    rw [updatesOf_append] at hBrought
    exact (List.prefix_append _ _).trans hBrought

/-- What a request's updates have come to in a run. -/
def Tracked (total : UInt64) (entryType : String) (t : Nat) (body : List RequestUpdate)
    (ls : List Label) (c : State) : Prop :=
  (c.requests[t]? = none ∧ updatesOf t ls = []) ∨
    ∃ r, c.requests[t]? = some r ∧
      Tracks total entryType body (updatesOf t ls) (c.shared.getState r.key) r

/-- One step keeps the ledger of a request whose stream follows the body. -/
theorem tracked_step {c d : State} {l : Label} {t : Nat} {body : List RequestUpdate}
    {ls : List Label} (hBody : Orderly entryType body) (hBalanced : Balanced c)
    (hBefore : Follows t body ls c) (hFollows : Follows t body (ls ++ [l]) d)
    (h : Tracked total entryType t body ls c) (hStep : step total entryType c l = some d) :
    Tracked total entryType t body (ls ++ [l]) d := by
  have hBrought := hFollows.brought
  rw [updatesOf_append] at hBrought
  rw [Tracked, updatesOf_append]
  rcases h with ⟨hNone, hUpdates⟩ | ⟨r, hr, hTracks⟩
  · obtain ⟨hQuiet, hArrives⟩ := step_arrives hStep hNone
    rw [updatesOf_other hQuiet, List.append_nil]
    rcases hArrives with hNone' | ⟨key, isSizesProbe, hFresh⟩
    · exact Or.inl ⟨hNone', hUpdates⟩
    · exact Or.inr ⟨.fresh key isSizesProbe, hFresh, .fresh hUpdates rfl rfl rfl⟩
  · right
    rcases step_request hStep hr with ⟨hQuiet, hKept⟩ | ⟨input, r', hAction, hTurn, hMoved⟩
    · have hState := OwnKey.getState hBefore.ownKey hBalanced hStep hr hQuiet
      rw [updatesOf_other hQuiet, List.append_nil]
      exact ⟨r, hKept, hState ▸ hTracks⟩
    · rw [updatesOf_turn hAction] at hBrought ⊢
      refine ⟨r', hMoved, ?_⟩
      rw [(Request.turn_key hTurn).1]
      exact hTracks.turn hBody (hBalanced.consistent r (List.mem_of_getElem? hr))
        (hBefore.payload r hr) hTurn hBrought

/-- In every run the ledger of a request accounts for the blobs it has started. -/
theorem tracked_run {c : State} {t : Nat} {body : List RequestUpdate} {ls : List Label}
    (hBody : Orderly entryType body)
    (hRun : exec (step total entryType) State.idle ls = some c) (hFollows : Follows t body ls c) :
    Tracked total entryType t body ls c := by
  refine @exec_history _ _ (step total entryType)
    (fun ls c => Follows t body ls c → Tracked total entryType t body ls c) State.idle ?_ ?_ ls c
    hRun hFollows
  · exact fun _ => Or.inl ⟨rfl, rfl⟩
  · intro ls m l d hPrior hInv hStep hAfter
    have hBefore := hAfter.before hStep
    exact tracked_step hBody (balanced_run hPrior) hBefore hAfter (hInv hBefore) hStep

/-- A request that has ended with its `Completed` was judged by the blobs it
began itself. -/
theorem completed_judged {c : State} {t : Nat} {body : List RequestUpdate} {ls : List Label}
    (hBody : Orderly entryType body)
    (hRun : exec (step total entryType) State.idle ls = some c) (hFollows : Follows t body ls c)
    (hWhole : updatesOf t ls = body ++ [.completed]) (hRequest : c.requests[t]? = some r)
    (hOver : r.stage = .returned) :
    r.ended = some (judgement total entryType (startedBlobs body)) := by
  rcases tracked_run hBody hRun hFollows with ⟨hNone, _⟩ | ⟨q, hq, hTracks⟩
  · rw [hNone] at hRequest
    cases hRequest
  · obtain rfl : r = q := Option.some.inj (hRequest.symm.trans hq)
    cases hTracks with
    | fresh _ hStage _ _ => cases hOver.symm.trans hStage
    | inserting u _ _ hStage _ => cases hOver.symm.trans hStage
    | live s entered taken _ hStage _ _ _ _ _ =>
        rw [hOver] at hStage
        cases hStage
    | removing _ hStage _ => cases hOver.symm.trans hStage
    | judged _ hEnded => exact hEnded
    | lost hLost => exact absurd (by simp [hWhole]) hLost.uncompleted

end

end AltSendme.ProvideProgress
