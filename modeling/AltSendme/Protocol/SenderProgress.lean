import AltSendme.Protocol.SentBytes

/-! The byte counts that the sender reports for one request. They are those of
the request's own updates, whatever the other requests do, so they never
decrease when its blobs come in order. -/
namespace AltSendme.ProvideProgress
open Execution

/-- The updates that were taken and are not entered yet. -/
def RequestStage.pending : RequestStage → List RequestUpdate
  | .inserting u => [u]
  | .accounting index size => [.started index size]
  | .measuring endOffset => [.progress endOffset]
  | .finishing => [.completed]
  | .aborting => [.aborted]
  | _ => []

/-- The stages of a request that has a state and may still report. -/
def RequestStage.isLive : RequestStage → Bool
  | .receiving | .accounting _ _ | .measuring _ | .finishing | .aborting | .closing => true
  | _ => false

/-- The byte counts in these events. -/
def progressCounts (events : List SendEvent) : List Nat :=
  events.filterMap fun
    | .transferProgress bytesTransferred _ => some bytesTransferred.toNat
    | _ => none

/-- The byte counts that a step reports for the request. -/
def newCounts (t : Nat) (c : State) (l : Label) (d : State) : List Nat :=
  match l.action with
  | .turn u _ =>
      if u = t then progressCounts (d.shared.events.drop c.shared.events.length) else []
  | _ => []

/-- The byte counts in the transfer-progress events of one request. -/
def reportedCounts (total : UInt64) (entryType : String) (t : Nat) (ls : List Label) : List Nat :=
  outputs (step total entryType) (newCounts t) .idle ls

/-- A payload request and its state after its updates: no state yet, a state that
meters them, about to be judged, or out of the books. -/
inductive Metered (total : UInt64) (entryType : String) (us : List RequestUpdate)
    (entry : Option TransferState) (r : Request) : Prop where
  | fresh (entered : List RequestUpdate) (hUpdates : us = entered ++ r.stage.pending)
      (hSent : sentBy entered = .nothing) (hStarted : r.transferStarted = false)
      (hStage : r.stage = .receiving ∨ r.stage = .returned ∨
        ∃ u, r.stage = .inserting u ∧ u ≠ .completed ∧ u ≠ .aborted)
      (hEnded : r.ended = none)
  | live (s : TransferState) (entered : List RequestUpdate)
      (hUpdates : us = entered ++ r.stage.pending) (hStarted : r.transferStarted = true)
      (hStage : r.stage.isLive = true) (hEnded : r.ended = none) (hEntry : entry = some s)
      (hMeter : Meter total entryType entered s)
  | removing (bytesSent : UInt64) (hStarted : r.transferStarted = true)
      (hStage : r.stage = .removing bytesSent) (hEnded : r.ended = none)
      (hBytes : bytesSent.toNat ≤ countedBytes total entryType us)
      (hEntry : ∀ s ∈ entry, s.accountedPayloadBytes.toNat ≤ countedBytes total entryType us)
  | ended (how : RequestEnd) (hStarted : r.transferStarted = true) (hEnded : r.ended = some how)
      (hHow : ∀ bytesSent, how = .complete bytesSent →
        bytesSent.toNat ≤ countedBytes total entryType us ∧
          transferPayloadComplete bytesSent total = true)
      (hEntry : entry = none ∨ r.stage = .returned ∨ r.stage.awaited = some .returned)
      (hBytes : ∀ s ∈ entry, s.accountedPayloadBytes.toNat ≤ countedBytes total entryType us)

section
variable {p p' : Shared} {r r' : Request} {total : UInt64} {entryType : String} {now : Nat}
  {input : Input} {us : List RequestUpdate} {c d : State} {l : Label} {t : Nat} {ls : List Label}

/-- What a payload request does with an update. -/
theorem Request.turn_update {u : RequestUpdate} (hPayload : r.isSizesProbe = false)
    (h : r.turn total entryType now p (.update u) = some (p', r')) :
    r.stage = .receiving ∧ p' = p ∧ r' = { r with stage := r.afterUpdate u } := by
  simp only [turn] at h
  split at h
  · next hStage =>
      cases h
      refine ⟨hStage, rfl, ?_⟩
      simp [hPayload]
  · cases h

/-- A stream that closes sends its request to the books and changes nothing else. -/
theorem Request.turn_closed (h : r.turn total entryType now p .closed = some (p', r')) :
    r.stage = .receiving ∧ p' = p ∧ r' = { r with stage :=
      if !r.isSizesProbe && r.transferStarted && r.ended.isNone then .closing else .returned } := by
  simp only [turn] at h
  split at h
  · next hStage =>
      cases h
      exact ⟨hStage, rfl, rfl⟩
  · cases h

/-- Before its start a request goes on to insert itself or takes nothing in. -/
theorem Request.afterUpdate_unstarted (hStarted : r.transferStarted = false) (u : RequestUpdate) :
    (r.afterUpdate u = .inserting u ∧ u ≠ .completed ∧ u ≠ .aborted) ∨
      (r.afterUpdate u = .receiving ∧ Sent.nothing.take u = .nothing) := by
  cases u with
  | started index size => exact Or.inl ⟨by simp [afterUpdate, hStarted], by simp, by simp⟩
  | progress endOffset => exact Or.inl ⟨by simp [afterUpdate, hStarted], by simp, by simp⟩
  | completed => exact Or.inr ⟨by simp [afterUpdate, hStarted], rfl⟩
  | aborted => exact Or.inr ⟨by simp [afterUpdate, hStarted], rfl⟩

/-- A live request takes every update in. -/
theorem Request.afterUpdate_live (hStarted : r.transferStarted = true) (hEnded : r.ended = none)
    (u : RequestUpdate) : (r.afterUpdate u).pending = [u] ∧ (r.afterUpdate u).isLive = true := by
  cases u with
  | started index size =>
      have hAfter : r.afterUpdate (.started index size) = .accounting index size := by
        simp [afterUpdate, hStarted]
      rw [hAfter]
      exact ⟨rfl, rfl⟩
  | progress endOffset =>
      have hAfter : r.afterUpdate (.progress endOffset) = .measuring endOffset := by
        simp [afterUpdate, hStarted]
      rw [hAfter]
      exact ⟨rfl, rfl⟩
  | completed =>
      have hAfter : r.afterUpdate .completed = .finishing := by
        simp [afterUpdate, hStarted, hEnded]
      rw [hAfter]
      exact ⟨rfl, rfl⟩
  | aborted =>
      have hAfter : r.afterUpdate .aborted = .aborting := by
        simp [afterUpdate, hStarted, hEnded]
      rw [hAfter]
      exact ⟨rfl, rfl⟩

/-- After the insertion the update that caused it is taken in. -/
theorem Request.afterInsert_live {u : RequestUpdate} (hKind : u ≠ .completed ∧ u ≠ .aborted) :
    (afterInsert u).pending = [u] ∧ (afterInsert u).isLive = true := by
  cases u with
  | started index size => exact ⟨rfl, rfl⟩
  | progress endOffset => exact ⟨rfl, rfl⟩
  | completed => exact absurd rfl hKind.1
  | aborted => exact absurd rfl hKind.2

/-- A removed request has no entry any more. -/
theorem Shared.getState_removeState {key : RequestKey} : (p.removeState key).getState key = none := by
  rw [getState, removeState, List.lookup_eq_none_iff]
  intro entry hEntry
  have hKey : entry.1 ≠ key := bne_iff_ne.mp (List.mem_filter.mp hEntry).2
  exact bne_iff_ne.mpr (Ne.symm hKey)

/-- A delivered request is out of the books and may wait. -/
theorem Request.complete_parts {bytesSent : UInt64} {resume : RequestStage}
    (h : r.complete now p bytesSent resume = (p', r')) :
    p'.transferStates = p.transferStates ∧ r'.ended = some (.complete bytesSent) ∧
      r'.transferStarted = r.transferStarted ∧
      (r'.stage = resume ∨ r'.stage.awaited = some resume) := by
  simp only [complete] at h
  split at h
  · cases h
    exact ⟨rfl, rfl, rfl, Or.inr rfl⟩
  · cases h
    exact ⟨rfl, rfl, rfl, Or.inl rfl⟩

/-- The turn of a request that has no state yet. -/
theorem Metered.turn_fresh {entered : List RequestUpdate} (hPayload : r.isSizesProbe = false)
    (hUpdates : us = entered ++ r.stage.pending) (hSent : sentBy entered = .nothing)
    (hStarted : r.transferStarted = false) (hEnded : r.ended = none)
    (hStage : r.stage = .receiving ∨ r.stage = .returned ∨
      ∃ u, r.stage = .inserting u ∧ u ≠ .completed ∧ u ≠ .aborted)
    (h : r.turn total entryType now p input = some (p', r')) :
    Metered total entryType (us ++ input.updates) (p'.getState r.key) r' := by
  cases input with
  | update u =>
      obtain ⟨hReceiving, rfl, rfl⟩ := Request.turn_update hPayload h
      rw [hReceiving] at hUpdates
      obtain rfl : us = entered := hUpdates.trans (List.append_nil _)
      rcases Request.afterUpdate_unstarted hStarted u with ⟨hAfter, hKind⟩ | ⟨hAfter, hNothing⟩
      · refine .fresh us ?_ hSent hStarted (Or.inr (Or.inr ⟨u, hAfter, hKind⟩)) hEnded
        simp only [hAfter]
        rfl
      · refine .fresh (us ++ [u]) ?_ ?_ hStarted (Or.inl hAfter) hEnded
        · simp only [hAfter]
          exact (List.append_nil _).symm
        · rw [sentBy_concat, hSent, hNothing]
  | closed =>
      obtain ⟨hReceiving, rfl, rfl⟩ := Request.turn_closed h
      rw [hReceiving] at hUpdates
      refine .fresh entered ?_ hSent hStarted (Or.inr (Or.inl ?_)) hEnded
      · simp only [hStarted, Bool.and_false, Bool.false_and, Bool.false_eq_true, if_false]
        exact (List.append_nil us).trans hUpdates
      · simp [hStarted]
  | go =>
      rcases hStage with hStage | hStage | ⟨u, hStage, hKind⟩
      · simp [Request.turn, hStage] at h
      · simp [Request.turn, hStage] at h
      · obtain ⟨hPending, hLive⟩ := Request.afterInsert_live hKind
        simp only [Request.turn, hStage] at h
        cases h
        refine .live (.init now total u.isProgress) entered ?_ rfl hLive hEnded ?_
          (.init hSent now _)
        · rw [hUpdates, hStage, hPending]
          exact List.append_nil _
        · rw [Shared.getState_emitStarted]
          exact Shared.getState_insertState _

theorem Shared.accountedBytes_of_getState {key : RequestKey} {s : TransferState}
    (h : p.getState key = some s) : p.accountedBytes key = s.accountedPayloadBytes := by
  rw [accountedBytes, h]
  rfl

/-- The turn of a request whose updates are at their end. -/
theorem Metered.turn_closing {s : TransferState} (hStarted : r.transferStarted = true)
    (hStage : r.stage = .closing) (hEntry : p.getState r.key = some s)
    (hMeter : Meter total entryType us s)
    (h : r.turn total entryType now p .go = some (p', r')) :
    Metered total entryType us (p'.getState r.key) r' := by
  have hBytes := hMeter.accounted_le
  have hJudged := Shared.accountedBytes_of_getState hEntry
  have hLeft : ∀ s' ∈ p.getState r.key,
      s'.accountedPayloadBytes.toNat ≤ countedBytes total entryType us := by
    intro s' hs'
    obtain rfl := Option.some.inj (hEntry.symm.trans hs')
    exact hBytes
  simp only [Request.turn, hStage, hJudged] at h
  split at h
  · next hFull =>
      obtain ⟨hStates, hHow, hSame, hNext⟩ := Request.complete_parts (Option.some.inj h)
      refine .ended _ (hSame.trans hStarted) hHow ?_ (Or.inr hNext) ?_
      · intro bytesSent hEq
        cases hEq
        exact ⟨hBytes, hFull⟩
      · rwa [Shared.getState, hStates]
  · cases h
    exact .ended .incomplete hStarted rfl (by simp) (Or.inr (Or.inl rfl)) hLeft

/-- The turn of a request that has a state. -/
theorem Metered.turn_live {entered : List RequestUpdate} {s : TransferState}
    (hPayload : r.isSizesProbe = false) (hUpdates : us = entered ++ r.stage.pending)
    (hStarted : r.transferStarted = true) (hLive : r.stage.isLive = true) (hEnded : r.ended = none)
    (hEntry : p.getState r.key = some s) (hMeter : Meter total entryType entered s)
    (h : r.turn total entryType now p input = some (p', r')) :
    Metered total entryType (us ++ input.updates) (p'.getState r.key) r' := by
  cases input with
  | update u =>
      obtain ⟨hReceiving, rfl, rfl⟩ := Request.turn_update hPayload h
      rw [hReceiving] at hUpdates
      obtain rfl : us = entered := hUpdates.trans (List.append_nil _)
      obtain ⟨hPending, hLive'⟩ := Request.afterUpdate_live hStarted hEnded u
      refine .live s us ?_ hStarted hLive' hEnded hEntry hMeter
      simp only [hPending]
      rfl
  | closed =>
      obtain ⟨hReceiving, rfl, rfl⟩ := Request.turn_closed h
      rw [hReceiving] at hUpdates
      refine .live s entered ?_ hStarted ?_ hEnded hEntry hMeter
      · simp only [hPayload, hStarted, hEnded, Bool.not_false, Bool.and_true, Option.isNone_none,
          if_true]
        exact (List.append_nil us).trans hUpdates
      · simp only [hPayload, hStarted, hEnded, Bool.not_false, Bool.and_true, Option.isNone_none,
          if_true]
        rfl
  | go =>
      rw [Input.updates, List.append_nil]
      cases hStage : r.stage with
      | receiving => simp [Request.turn, hStage] at h
      | accounting index size =>
          rw [hStage] at hUpdates
          simp only [Request.turn, hStage] at h
          cases h
          have hNext : Meter total entryType us
              (s.startBlob now (Request.isMetadataBlob entryType index) size) :=
            hUpdates ▸ hMeter.startBlob index size
          refine .live _ us (List.append_nil us).symm hStarted rfl hEnded ?_ hNext
          rw [Shared.getState_modifyState, hEntry]
          rfl
      | measuring endOffset =>
          rw [hStage] at hUpdates
          have hState : (p.modifyState r.key (.progressBlob endOffset)).getState r.key =
              some (s.progressBlob endOffset) := by
            rw [Shared.getState_modifyState, hEntry]
            rfl
          simp only [Request.turn, hStage, hState] at h
          cases h
          exact .live _ us (List.append_nil us).symm hStarted rfl hEnded hState
            (hUpdates ▸ hMeter.progressBlob endOffset)
      | finishing =>
          rw [hStage] at hUpdates
          have hState : (p.modifyState r.key .accountBlob).getState r.key = some s.accountBlob := by
            rw [Shared.getState_modifyState, hEntry]
            rfl
          have hBytes := hMeter.completed_le
          have hJudged := Shared.accountedBytes_of_getState hState
          simp only [Request.turn, hStage, hJudged] at h
          cases h
          refine .removing _ hStarted rfl hEnded (hUpdates ▸ hBytes) fun s' hs' => ?_
          obtain rfl := Option.some.inj (hState.symm.trans hs')
          exact hUpdates ▸ hBytes
      | aborting =>
          simp only [Request.turn, hStage] at h
          have hNone : p'.getState r.key = none := by
            split at h <;> cases h <;> exact Shared.getState_removeState
          have hEnded' : r'.ended = some .aborted ∧ r'.transferStarted = true := by
            split at h <;> cases h <;> exact ⟨rfl, hStarted⟩
          refine .ended .aborted hEnded'.2 hEnded'.1 (by simp) (Or.inl hNone) ?_
          rw [hNone]
          simp
      | closing =>
          rw [hStage] at hUpdates
          obtain rfl : us = entered := hUpdates.trans (List.append_nil _)
          exact turn_closing hStarted hStage hEntry hMeter h
      | _ =>
          rw [hStage] at hLive
          cases hLive

/-- The turn of a request that waits to be judged. -/
theorem Metered.turn_removing {bytesSent : UInt64} (hStarted : r.transferStarted = true)
    (hStage : r.stage = .removing bytesSent)
    (hBytes : bytesSent.toNat ≤ countedBytes total entryType us)
    (h : r.turn total entryType now p input = some (p', r')) :
    Metered total entryType (us ++ input.updates) (p'.getState r.key) r' := by
  cases input with
  | update u => simp [Request.turn, hStage] at h
  | closed => simp [Request.turn, hStage] at h
  | go =>
      rw [Input.updates, List.append_nil]
      have hRemoved : ((p.removeState r.key).emitActiveCount).getState r.key = none :=
        Shared.getState_removeState
      simp only [Request.turn, hStage] at h
      split at h
      · next hFull =>
          obtain ⟨hStates, hHow, hSame, _⟩ := Request.complete_parts (Option.some.inj h)
          have hNone : p'.getState r.key = none := by
            rw [Shared.getState, hStates]
            exact hRemoved
          refine .ended _ (hSame.trans hStarted) hHow ?_ (Or.inl hNone) ?_
          · intro b hEq
            cases hEq
            exact ⟨hBytes, hFull⟩
          · rw [hNone]
            simp
      · cases h
        exact .ended .incomplete hStarted rfl (by simp) (Or.inl hRemoved)
          fun s hs => by cases hRemoved.symm.trans hs

/-- A request that has started stays started. -/
theorem Request.turn_started (h : r.turn total entryType now p input = some (p', r'))
    (hStarted : r.transferStarted = true) : r'.transferStarted = true := by
  cases input with
  | update u =>
      simp only [turn] at h
      split at h <;> cases h
      exact hStarted
  | closed =>
      obtain ⟨_, _, rfl⟩ := turn_closed h
      exact hStarted
  | go =>
      simp only [turn, complete, incomplete] at h
      repeat' split at h
      all_goals cases h
      all_goals first | exact hStarted | rfl

/-- A request that was taken out leaves its state alone. -/
theorem Request.turn_ended_state (hConsistent : r.Consistent) {how : RequestEnd}
    (hEnded : r.ended = some how)
    (hEntry : p.getState r.key = none ∨ r.stage = .returned ∨ r.stage.awaited = some .returned)
    (h : r.turn total entryType now p input = some (p', r')) :
    p'.getState r.key = p.getState r.key ∧
      (p'.getState r.key = none ∨ r'.stage = .returned ∨ r'.stage.awaited = some .returned) := by
  have hNotEnding : r.stage.isEnding = false := by
    cases hEnding : r.stage.isEnding with
    | false => rfl
    | true => cases (hConsistent.ending hEnding).1.symm.trans hEnded
  have hAway {stage : RequestStage} (hStage : r.stage = stage) (hReturned : stage ≠ .returned)
      (hAwaited : stage.awaited = none) : p.getState r.key = none := by
    subst hStage
    rcases hEntry with hNone | hGone | hGone
    · exact hNone
    · exact absurd hGone hReturned
    · cases hAwaited.symm.trans hGone
  cases input with
  | update u =>
      simp only [turn] at h
      split at h
      · next hReceiving =>
          cases h
          exact ⟨rfl, Or.inl (hAway hReceiving (by simp) rfl)⟩
      · cases h
  | closed =>
      obtain ⟨hReceiving, rfl, rfl⟩ := turn_closed h
      exact ⟨rfl, Or.inl (hAway hReceiving (by simp) rfl)⟩
  | go =>
      cases hStage : r.stage with
      | receiving => simp [Request.turn, hStage] at h
      | returned => simp [Request.turn, hStage] at h
      | inserting u => cases (hConsistent.inserting u hStage).symm.trans hEnded
      | accounting index size =>
          have hNone := hAway hStage (by simp) rfl
          simp only [Request.turn, hStage] at h
          cases h
          have hNone' : (p.modifyState r.key (.startBlob now
              (isMetadataBlob entryType index) size)).getState r.key = none := by
            rw [Shared.getState_modifyState, hNone]
            rfl
          exact ⟨hNone'.trans hNone.symm, Or.inl hNone'⟩
      | measuring endOffset =>
          have hNone := hAway hStage (by simp) rfl
          have hNone' : (p.modifyState r.key (.progressBlob endOffset)).getState r.key = none := by
            rw [Shared.getState_modifyState, hNone]
            rfl
          simp only [Request.turn, hStage, hNone'] at h
          cases h
          exact ⟨hNone'.trans hNone.symm, Or.inl hNone'⟩
      | sleeping wakeAt activeBeforeWait resume =>
          rw [hStage] at hEntry
          simp only [Request.turn, hStage] at h
          split at h
          · cases h
          · cases h
            rcases hEntry with hNone | hGone | hGone
            · exact ⟨rfl, Or.inl hNone⟩
            · cases hGone
            · exact ⟨rfl, Or.inr (Or.inr hGone)⟩
      | checkingStates quiet resume =>
          rw [hStage] at hEntry
          simp only [Request.turn, hStage] at h
          cases h
          rcases hEntry with hNone | hGone | hGone
          · exact ⟨rfl, Or.inl hNone⟩
          · cases hGone
          · exact ⟨rfl, Or.inr (Or.inr hGone)⟩
      | checkingLast quiet resume =>
          rw [hStage] at hEntry
          have hSame : p'.getState r.key = p.getState r.key := by
            simp only [Request.turn, hStage] at h
            split at h <;> cases h
            · exact Shared.getState_emitCompleted
            · rfl
          have hStage' : r'.stage = resume := by
            simp only [Request.turn, hStage] at h
            split at h <;> cases h <;> rfl
          refine ⟨hSame, ?_⟩
          rw [hSame]
          rcases hEntry with hNone | hGone | hGone
          · exact Or.inl hNone
          · cases hGone
          · exact Or.inr (Or.inl (hStage'.trans (Option.some.inj hGone)))
      | _ =>
          rw [hStage] at hNotEnding
          cases hNotEnding

/-- Every turn of a payload request keeps it metered. -/
theorem Metered.turn (hConsistent : r.Consistent) (hPayload : r.isSizesProbe = false)
    (hMetered : Metered total entryType us (p.getState r.key) r)
    (h : r.turn total entryType now p input = some (p', r')) :
    Metered total entryType (us ++ input.updates) (p'.getState r.key) r' := by
  cases hMetered with
  | fresh entered hUpdates hSent hStarted hStage hEnded =>
      exact turn_fresh hPayload hUpdates hSent hStarted hEnded hStage h
  | live s entered hUpdates hStarted hStage hEnded hEntry hMeter =>
      exact turn_live hPayload hUpdates hStarted hStage hEnded hEntry hMeter h
  | removing bytesSent hStarted hStage hEnded hBytes hEntry =>
      exact turn_removing hStarted hStage hBytes h
  | ended how hStarted hEnded hHow hEntry hBytes =>
      have hMore := countedBytes_le_append total entryType us input.updates
      obtain ⟨hSame, hNext⟩ := Request.turn_ended_state hConsistent hEnded hEntry h
      refine .ended how (Request.turn_started h hStarted)
        (Request.turn_ended hConsistent h hEnded)
        (fun b hb => ⟨(hHow b hb).1.trans hMore, (hHow b hb).2⟩) hNext ?_
      rw [hSame]
      exact fun s hs => (hBytes s hs).trans hMore

/-- The events from `p` to `p'` have no byte counts. -/
def Shared.Quiet (p p' : Shared) : Prop :=
  ∃ more, p'.events = p.events ++ more ∧ progressCounts more = []

theorem Shared.quiet_of_events (h : p'.events = p.events) : p.Quiet p' :=
  ⟨[], h.trans (List.append_nil _).symm, rfl⟩

theorem Shared.Quiet.emit {q : Shared} (h : p.Quiet q) {event : SendEvent}
    (hEvent : progressCounts [event] = []) : p.Quiet (q.emit event) := by
  obtain ⟨more, hMore, hNone⟩ := h
  refine ⟨more ++ [event], ?_, ?_⟩
  · simp [Shared.emit, hMore]
  · rw [progressCounts, List.filterMap_append]
    exact List.append_eq_nil_iff.mpr ⟨hNone, hEvent⟩

/-- Reporting the start counts no bytes. -/
theorem Shared.Quiet.emitStarted {q : Shared} (h : p.Quiet q) : p.Quiet q.emitStarted := by
  rw [Shared.emitStarted]
  split
  · exact h
  · exact Quiet.emit (q := { q with hasEmittedStarted := true }) h rfl

/-- Reporting completion counts no bytes. -/
theorem Shared.Quiet.emitCompleted {q : Shared} (h : p.Quiet q) : p.Quiet q.emitCompleted := by
  rw [Shared.emitCompleted]
  split
  · exact h
  · exact Quiet.emit (q := { q with hasEmittedCompleted := true }) h rfl

/-- A quiet step adds no byte counts to the events. -/
theorem Shared.Quiet.counts (h : p.Quiet p') :
    progressCounts (p'.events.drop p.events.length) = [] := by
  obtain ⟨more, hMore, hNone⟩ := h
  rw [hMore, List.drop_left, hNone]

/-- A turn reports at most one count, that of the state it has just changed. -/
theorem Request.turn_counts (h : r.turn total entryType now p input = some (p', r')) :
    progressCounts (p'.events.drop p.events.length) = [] ∨
      ∃ endOffset s, r.stage = .measuring endOffset ∧ input = .go ∧ p.getState r.key = some s ∧
        progressCounts (p'.events.drop p.events.length) =
          [(min (s.progressBlob endOffset).transferred
            (s.progressBlob endOffset).totalSize).toNat] := by
  have hSame : p.Quiet p := Shared.quiet_of_events rfl
  cases input with
  | update u =>
      simp only [turn] at h
      split at h <;> cases h
      exact Or.inl hSame.counts
  | closed =>
      obtain ⟨_, rfl, _⟩ := turn_closed h
      exact Or.inl hSame.counts
  | go =>
      cases hStage : r.stage with
      | receiving => simp [turn, hStage] at h
      | returned => simp [turn, hStage] at h
      | inserting u =>
          simp only [turn, hStage] at h
          cases h
          have hInserted : p.Quiet (p.insertState r.key (.init now total u.isProgress)) :=
            Shared.quiet_of_events rfl
          exact Or.inl (Shared.Quiet.emit hInserted rfl).emitStarted.counts
      | accounting index size =>
          simp only [turn, hStage] at h
          cases h
          exact Or.inl (Shared.Quiet.counts (Shared.quiet_of_events rfl))
      | measuring endOffset =>
          simp only [turn, hStage] at h
          split at h
          · next s hState =>
              cases h
              rw [Shared.getState_modifyState, Option.map_eq_some_iff] at hState
              obtain ⟨s₀, hEntry, rfl⟩ := hState
              refine Or.inr ⟨endOffset, s₀, rfl, rfl, hEntry, ?_⟩
              simp [Shared.emit, Shared.modifyState, progressCounts]
          · cases h
            exact Or.inl (Shared.Quiet.counts (Shared.quiet_of_events rfl))
      | finishing =>
          simp only [turn, hStage] at h
          cases h
          exact Or.inl (Shared.Quiet.counts (Shared.quiet_of_events rfl))
      | removing bytesSent =>
          have hRemoved : p.Quiet (p.removeState r.key).emitActiveCount :=
            Shared.Quiet.emit (Shared.quiet_of_events rfl) rfl
          simp only [turn, hStage, complete, incomplete] at h
          repeat' split at h
          all_goals cases h
          all_goals exact Or.inl hRemoved.counts
      | aborting =>
          have hRemoved : p.Quiet (p.removeState r.key).emitActiveCount :=
            Shared.Quiet.emit (Shared.quiet_of_events rfl) rfl
          simp only [turn, hStage] at h
          cases h
          split
          · exact Or.inl (Shared.Quiet.emit (q := { (p.removeState r.key).emitActiveCount with
              completedRequests := _ }) hRemoved rfl).counts
          · exact Or.inl hRemoved.counts
      | closing =>
          simp only [turn, hStage, complete, incomplete] at h
          repeat' split at h
          all_goals cases h
          all_goals exact Or.inl hSame.counts
      | sleeping wakeAt activeBeforeWait resume =>
          simp only [turn, hStage] at h
          split at h <;> cases h
          exact Or.inl hSame.counts
      | checkingStates quiet resume =>
          simp only [turn, hStage] at h
          cases h
          exact Or.inl hSame.counts
      | checkingLast quiet resume =>
          simp only [turn, hStage] at h
          cases h
          split
          · exact Or.inl hSame.emitCompleted.counts
          · exact Or.inl hSame.counts

/-- A payload request in a run, metered by its own updates. -/
def MeteredAt (total : UInt64) (entryType : String) (t : Nat) (ls : List Label) (c : State) :
    Prop :=
  (c.requests[t]? = none ∧ updatesOf t ls = []) ∨
    ∃ r, c.requests[t]? = some r ∧ (r.isSizesProbe = false →
      Metered total entryType (updatesOf t ls) (c.shared.getState r.key) r)

/-- One step keeps the meter of a request that has its key to itself. -/
theorem meteredAt_step (hBalanced : Balanced c) (hOwn : OwnKey t c)
    (h : MeteredAt total entryType t ls c) (hStep : step total entryType c l = some d) :
    MeteredAt total entryType t (ls ++ [l]) d := by
  rw [MeteredAt, updatesOf_append]
  rcases h with ⟨hNone, hUpdates⟩ | ⟨r, hr, hMetered⟩
  · obtain ⟨hQuiet, hArrives⟩ := step_arrives hStep hNone
    rw [updatesOf_other hQuiet, List.append_nil]
    rcases hArrives with hNone' | ⟨key, isSizesProbe, hFresh⟩
    · exact Or.inl ⟨hNone', hUpdates⟩
    · refine Or.inr ⟨.fresh key isSizesProbe, hFresh, fun _ => ?_⟩
      rw [hUpdates]
      exact .fresh [] rfl rfl rfl (Or.inl rfl) rfl
  · right
    rcases step_request hStep hr with ⟨hQuiet, hKept⟩ | ⟨input, r', hAction, hTurn, hMoved⟩
    · have hState := hOwn.getState hBalanced hStep hr hQuiet
      rw [updatesOf_other hQuiet, List.append_nil]
      exact ⟨r, hKept, fun hPayload => hState ▸ hMetered hPayload⟩
    · rw [updatesOf_turn hAction]
      obtain ⟨hKey, hKind⟩ := Request.turn_key hTurn
      refine ⟨r', hMoved, fun hPayload => ?_⟩
      rw [hKind] at hPayload
      rw [hKey]
      exact (hMetered hPayload).turn (hBalanced.consistent r (List.mem_of_getElem? hr)) hPayload
        hTurn

/-- In every run the meter of a request shows what its stream has sent. -/
theorem meteredAt_run (hRun : exec (step total entryType) State.idle ls = some c)
    (hOwn : OwnKey t c) : MeteredAt total entryType t ls c := by
  refine @exec_history _ _ (step total entryType)
    (fun ls c => OwnKey t c → MeteredAt total entryType t ls c) State.idle ?_ ?_ ls c hRun hOwn
  · exact fun _ => Or.inl ⟨rfl, rfl⟩
  · intro ls m l d hPrior hInv hStep hAfter
    have hBefore := hAfter.before hStep
    exact meteredAt_step (balanced_run hPrior) hBefore (hInv hBefore) hStep

/-- A request that measures either has no state or one that meters the updates
entered before. -/
theorem Metered.measuring {entry : Option TransferState} {endOffset : UInt64} {s : TransferState}
    (h : Metered total entryType us entry r) (hStage : r.stage = .measuring endOffset)
    (hEntry : entry = some s) :
    ∃ entered, us = entered ++ [.progress endOffset] ∧ Meter total entryType entered s := by
  cases h with
  | fresh entered hUpdates hSent hStarted hFresh hEnded =>
      rcases hFresh with hFresh | hFresh | ⟨u, hFresh, _⟩ <;> cases hFresh.symm.trans hStage
  | live s' entered hUpdates hStarted hLive hEnded hSame hMeter =>
      obtain rfl := Option.some.inj (hSame.symm.trans hEntry)
      exact ⟨entered, by rw [hUpdates, hStage]; rfl, hMeter⟩
  | removing bytesSent hStarted hRemoving hEnded hBytes hOther => cases hRemoving.symm.trans hStage
  | ended how hStarted hEnded hHow hGone hBytes =>
      rcases hGone with hNone | hGone | hGone
      · cases hNone.symm.trans hEntry
      · cases hGone.symm.trans hStage
      · rw [hStage] at hGone
        cases hGone

/-- Only the turns of a request report its byte counts. -/
theorem newCounts_quiet (h : ∀ input, l.action ≠ .turn t input) : newCounts t c l d = [] := by
  rw [newCounts]
  split
  · next u input hAction =>
      have hOther : u ≠ t := by
        rintro rfl
        exact h input hAction
      exact if_neg hOther
  · rfl

/-- What a step reports for a request is what its updates have come to. -/
theorem step_counts (hRun : exec (step total entryType) State.idle ls = some c)
    (hStep : step total entryType c l = some d) (hOwn : OwnKey t d) :
    newCounts t c l d = [] ∨ ∃ n, newCounts t c l d = [n] ∧
      n ≤ countedBytes total entryType (updatesOf t (ls ++ [l])) ∧
      (Ordered (updatesOf t (ls ++ [l])) →
        n = countedBytes total entryType (updatesOf t (ls ++ [l]))) := by
  have hBalanced := balanced_run hRun
  rcases meteredAt_run hRun (hOwn.before hStep) with ⟨hNone, _⟩ | ⟨r, hr, hMetered⟩
  · obtain ⟨hQuiet, _⟩ := step_arrives hStep hNone
    exact Or.inl (newCounts_quiet hQuiet)
  · rcases step_request hStep hr with ⟨hQuiet, hKept⟩ | ⟨input, r', hAction, hTurn, hMoved⟩
    · exact Or.inl (newCounts_quiet hQuiet)
    · have hNew : newCounts t c l d =
          progressCounts (d.shared.events.drop c.shared.events.length) := by
        rw [newCounts, hAction]
        exact if_pos rfl
      rcases Request.turn_counts hTurn with hNone | ⟨endOffset, s, hStage, rfl, hEntry, hCounts⟩
      · exact Or.inl (hNew.trans hNone)
      · have hPayload : r.isSizesProbe = false := by
          cases hProbe : r.isSizesProbe with
          | false => rfl
          | true =>
              have hConsistent := hBalanced.consistent r (List.mem_of_getElem? hr)
              rcases (hConsistent.probe hProbe).2 with hOther | hOther <;>
                cases hOther.symm.trans hStage
        obtain ⟨entered, hUpdates, hMeter⟩ := (hMetered hPayload).measuring hStage hEntry
        have hMeter' : Meter total entryType (updatesOf t ls) (s.progressBlob endOffset) :=
          hUpdates ▸ hMeter.progressBlob endOffset
        have hLe := hMeter'.transferred_le
        have hTotal : countedBytes total entryType (updatesOf t ls) ≤ total.toNat :=
          Nat.min_le_right _ _
        have hCount : (min (s.progressBlob endOffset).transferred
            (s.progressBlob endOffset).totalSize).toNat =
              (s.progressBlob endOffset).transferred.toNat := by
          rw [UInt64.toNat_min, hMeter'.totalSize]
          omega
        rw [updatesOf_append, updatesOf_turn hAction, Input.updates, List.append_nil]
        exact Or.inr ⟨_, hNew.trans hCounts, hCount ▸ hLe, fun hOrdered =>
          hCount.trans (hMeter'.transferred_eq hOrdered)⟩

/-- The counts reported for a request whose blobs come in order never decrease
and never exceed the total, whatever other requests do. -/
theorem progress_monotone_and_bounded
    (hRun : exec (step total entryType) State.idle ls = some c) (hOwn : OwnKey t c)
    (hOrdered : Ordered (updatesOf t ls)) :
    (reportedCounts total entryType t ls).Pairwise (· ≤ ·) ∧
      ∀ n ∈ reportedCounts total entryType t ls, n ≤ total.toNat := by
  have hRising : Rising (reportedCounts total entryType t ls)
      (countedBytes total entryType (updatesOf t ls)) := by
    refine @rising_outputs _ _ _ _ (step total entryType) (newCounts t)
      (fun ls => countedBytes total entryType (updatesOf t ls))
      (fun ls c => OwnKey t c ∧ Ordered (updatesOf t ls)) State.idle c ls ?_ ?_ hRun
      ⟨hOwn, hOrdered⟩
    · rintro ls m l d hStep ⟨hAfter, hMore⟩
      rw [updatesOf_append] at hMore
      exact ⟨hAfter.before hStep, hMore.before⟩
    · rintro ls m l d hPrior hStep ⟨hAfter, hMore⟩
      have hLevel : countedBytes total entryType (updatesOf t ls) ≤
          countedBytes total entryType (updatesOf t (ls ++ [l])) := by
        rw [updatesOf_append]
        exact countedBytes_le_append total entryType _ _
      rcases step_counts hPrior hStep hAfter with hNone | ⟨n, hNew, hLe, hEq⟩
      · rw [hNone]
        exact ⟨.nil, nofun, hLevel⟩
      · rw [hNew]
        refine ⟨List.pairwise_singleton _ _, fun v hv => ?_, hLevel⟩
        rw [List.mem_singleton.mp hv]
        exact ⟨hEq hMore ▸ hLevel, hLe⟩
  refine ⟨hRising.sorted, fun n hn => (hRising.bounded n hn).trans ?_⟩
  exact Nat.min_le_right _ _

end

section

private def turnsOf (t now : Nat) (u : RequestUpdate) : List Label :=
  [⟨now, .turn t (.update u)⟩, ⟨now, .turn t .go⟩]

/-- Two receivers at once. The first one reports before its first blob, beyond
a blob and backwards. -/
private def twoReceivers : List Label :=
  ⟨0, .message (.getRequestReceived (1, 1) false)⟩ :: turnsOf 0 0 (.progress 64) ++
    ⟨0, .turn 0 .go⟩ :: ⟨1, .message (.getRequestReceived (2, 1) false)⟩ ::
    turnsOf 1 1 (.started 2 700) ++ ⟨1, .turn 1 .go⟩ :: turnsOf 0 2 (.started 0 64) ++
    turnsOf 0 2 (.started 2 700) ++ turnsOf 0 3 (.progress 900) ++ turnsOf 1 3 (.progress 200) ++
    turnsOf 0 4 (.progress 300) ++ turnsOf 0 4 (.started 3 600) ++ turnsOf 0 5 (.progress 600)

theorem progress_monotone_and_bounded_twoReceivers :
    reportedCounts 1000 "collection" 0 twoReceivers = [0, 700, 700, 1000] ∧
      (reportedCounts 1000 "collection" 0 twoReceivers).Pairwise (· ≤ ·) := by
  have hRuns : ∃ c, exec (step 1000 "collection") State.idle twoReceivers = some c ∧
      OwnKey 0 c := by
    decide
  obtain ⟨c, hRun, hOwn⟩ := hRuns
  exact ⟨by decide, (progress_monotone_and_bounded hRun hOwn (by decide)).1⟩

end

end AltSendme.ProvideProgress
