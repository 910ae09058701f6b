import AltSendme.Protocol.TransferNotMissed
import AltSendme.Protocol.RequestLedger

/-! A download that was interrupted and is resumed. The receiver asks again for
the blobs it has not got in full, in a request of its own, and the sender judges
each request by the bytes accounted for that request alone. -/
namespace AltSendme.ProvideProgress
open Execution

/-- What a share offers: the list of hashes, the names and the files, in the
order of their blobs, and the size that was shown for it. -/
structure Collection where
  hashSeq : UInt64
  names : UInt64
  files : List UInt64
  totalCollectionSize : UInt64
  hTotal : totalCollectionSize.toNat = (files.map UInt64.toNat).sum
  hFew : files.length + 2 ≤ 2 ^ 64

namespace Collection

def blobs (share : Collection) : List Blob :=
  (share.hashSeq :: share.names :: share.files).zipIdx.map fun entry => (UInt64.ofNat entry.2, entry.1)

/-- The blobs come in the order of their indices. -/
theorem blobs_increasing (share : Collection) : share.blobs.Pairwise fun x y => x.1 < y.1 := by
  rw [List.pairwise_iff_getElem]
  intro i j hi hj hLess
  have hFew := share.hFew
  have hBlobs : share.blobs.length = share.files.length + 2 := by
    rw [blobs, List.length_map, List.length_zipIdx]
    rfl
  simp only [blobs, List.getElem_map, List.getElem_zipIdx]
  rw [UInt64.lt_iff_toNat_lt, UInt64.toNat_ofNat', UInt64.toNat_ofNat']
  omega

end Collection

/-- The blobs that a request has sent to their end. A blob is over when the
next one begins, when its last byte was reported, or when the request completes. -/
def sentBlobs : Option Blob → List RequestUpdate → List Blob
  | _, [] => []
  | sending, .started index size :: us => sending.toList ++ sentBlobs (some (index, size)) us
  | none, .progress _ :: us => sentBlobs none us
  | some blob, .progress endOffset :: us =>
      if blob.2 ≤ endOffset then blob :: sentBlobs none us else sentBlobs (some blob) us
  | sending, .completed :: us => sending.toList ++ sentBlobs none us
  | _, .aborted :: us => sentBlobs none us

/-- `local.missing()` after a request with these updates: whole blobs, as the
update that begins a blob tells its whole size. -/
def Collection.missing (share : Collection) (us : List RequestUpdate) : List Blob :=
  share.blobs.filter fun blob => blob ∉ sentBlobs none us

def RequestStage.isRemoving : RequestStage → Bool
  | .removing _ => true
  | _ => false

/-- The resumed request is judged after the interrupted one was seen aborted. -/
def JudgedAfterAbort (a b : Nat) (c : State) (l : Label) : Prop :=
  l.action = .turn b .go ∧ (∃ r ∈ c.requests[b]?, r.stage.isRemoving = true) ∧
    ∃ r ∈ c.requests[a]?, r.ended = some .aborted

instance (a b : Nat) (c : State) (l : Label) : Decidable (JudgedAfterAbort a b c l) :=
  @instDecidableAnd _ _ _ (@instDecidableAnd _ _
    (@Option.decidableExistsMem _ _ (fun _ => inferInstance) _)
    (@Option.decidableExistsMem _ _ (fun _ => inferInstance) _))

/-- The run up to `c` in which the request at `b` resumes the one at `a`: the
first was interrupted, the second asked for the blobs that were still missing,
in order, and ended with `Completed`; other requests are probes. Together the two
delivered every blob. -/
structure Resumed (share : Collection) (a b : Nat) (body : List RequestUpdate) (ls : List Label)
    (c : State) : Prop where
  order : a < b
  requests : ∃ first ∈ c.requests[a]?, ∃ resumed ∈ c.requests[b]?, first.isSizesProbe = false ∧
    resumed.isSizesProbe = false ∧ first.key ≠ resumed.key ∧ resumed.stage = .returned
  probes : ∀ t (ht : t < c.requests.length), t ≠ a → t ≠ b → c.requests[t].isSizesProbe = true
  interrupted : .completed ∉ updatesOf a ls
  completes : updatesOf b ls = body ++ [.completed]
  ordinary : .completed ∉ body ∧ .aborted ∉ body
  asked : startedBlobs body = share.missing (updatesOf a ls)
  remaining : share.missing (updatesOf a ls) ≠ []
  running : c.loop ≠ .returned

/-- What every part of such a run keeps to. -/
structure Resuming (a b : Nat) (body : List RequestUpdate) (ls : List Label) (c : State) :
    Prop where
  follows : Follows b body ls c
  first : ∀ r, c.requests[a]? = some r → r.isSizesProbe = false
  ownKey : ∀ r u q, c.requests[a]? = some r → c.requests[u]? = some q → u ≠ a →
    q.isSizesProbe = true ∨ q.key ≠ r.key
  probes : ∀ t r, c.requests[t]? = some r → t ≠ a → t ≠ b → r.isSizesProbe = true
  interrupted : .completed ∉ updatesOf a ls
  running : c.loop ≠ .returned

section
variable {p p' : Shared} {r r' : Request} {total : UInt64} {entryType : String} {now : Nat}
  {input : Input} {a b : Nat} {body : List RequestUpdate} {ls : List Label} {c d : State}
  {l : Label}

/-- The last statements of the function come once. -/
theorem step_running (h : step total entryType c l = some d) (hRunning : d.loop ≠ .returned) :
    c.loop ≠ .returned ∧ l.action ≠ .finish := by
  obtain ⟨now, action⟩ := l
  rw [step] at h
  split at h
  · cases h
  obtain ⟨e, hAct, rfl⟩ := Option.map_eq_some_iff.mp h
  cases action with
  | message message =>
      simp only [State.act] at hAct
      split at hAct
      · next hLoop => exact ⟨by rw [hLoop]; simp, by simp⟩
      · cases hAct
  | channelClosed =>
      simp only [State.act] at hAct
      split at hAct
      · next hLoop => exact ⟨by rw [hLoop]; simp, by simp⟩
      · cases hAct
  | turn t input =>
      simp only [State.act] at hAct
      obtain ⟨r, _, hTurn⟩ := Option.bind_eq_some_iff.mp hAct
      obtain ⟨⟨shared, r'⟩, _, hEq⟩ := Option.bind_eq_some_iff.mp hTurn
      cases hEq
      exact ⟨hRunning, by simp⟩
  | finish =>
      simp only [State.act] at hAct
      split at hAct <;> cases hAct
      exact absurd rfl hRunning

/-- A resumed transfer was one before the step too. -/
theorem Resuming.before (h : Resuming a b body (ls ++ [l]) d)
    (hStep : step total entryType c l = some d) : Resuming a b body ls c := by
  refine ⟨h.follows.before hStep, fun r hr => ?_, OwnKey.before h.ownKey hStep,
    fun t r hr hta htb => ?_, ?_, ?_⟩
  · obtain ⟨r', hr', _, hKind⟩ := step_named hStep hr
    exact hKind ▸ h.first r' hr'
  · obtain ⟨r', hr', _, hKind⟩ := step_named hStep hr
    exact hKind ▸ h.probes t r' hr' hta htb
  · intro hMem
    apply h.interrupted
    rw [updatesOf_append]
    exact List.mem_append_left _ hMem
  · exact (step_running hStep h.running).1

/-- The resuming stream is orderly. -/
theorem Resumed.orderly {share : Collection} (h : Resumed share a b body ls c)
    (entryType : String) : Orderly entryType body := by
  refine ⟨?_, h.ordinary.1, h.ordinary.2, fun us index size vs hSplit hMetadata => ?_⟩
  · rintro rfl
    exact h.remaining h.asked.symm
  · have hIncreasing : (startedBlobs body).Pairwise fun x y => x.1 < y.1 := by
      rw [h.asked]
      exact share.blobs_increasing.filter _
    rw [hSplit, startedBlobs_append, List.pairwise_append] at hIncreasing
    obtain ⟨_, _, hBefore⟩ := hIncreasing
    rw [List.eq_nil_iff_forall_not_mem]
    intro blob hMem
    have hLess := UInt64.lt_iff_toNat_lt.mp (hBefore blob hMem (index, size) List.mem_cons_self)
    obtain rfl : index = 0 := by
      exact of_decide_eq_true (Bool.and_eq_true_iff.mp hMetadata).2
    exact absurd hLess (Nat.not_lt_zero _)

/-- The two streams of a resumed transfer are resuming. -/
theorem Resumed.resuming {share : Collection} (h : Resumed share a b body ls c) :
    Resuming a b body ls c := by
  obtain ⟨first, hFirst, resumed, hResumed, hPayload, hPayload', hKeys, _⟩ := h.requests
  have hOrder := h.order
  have hProbes (t : Nat) (r : Request) (hr : c.requests[t]? = some r) (hta : t ≠ a)
      (htb : t ≠ b) : r.isSizesProbe = true := by
    obtain ⟨ht, rfl⟩ := List.getElem?_eq_some_iff.mp hr
    exact h.probes t ht hta htb
  refine ⟨⟨fun r hr => ?_, fun r u q hr hq hub => ?_, ?_⟩, fun r hr => ?_,
    fun r u q hr hq hua => ?_, hProbes, h.interrupted, h.running⟩
  · obtain rfl : resumed = r := Option.some.inj (hResumed.symm.trans hr)
    exact hPayload'
  · obtain rfl : resumed = r := Option.some.inj (hResumed.symm.trans hr)
    by_cases hua : u = a
    · subst hua
      obtain rfl : first = q := Option.some.inj (hFirst.symm.trans hq)
      exact Or.inr hKeys
    · exact Or.inl (hProbes u q hq hua hub)
  · rw [h.completes]
  · obtain rfl : first = r := Option.some.inj (hFirst.symm.trans hr)
    exact hPayload
  · obtain rfl : first = r := Option.some.inj (hFirst.symm.trans hr)
    by_cases hub : u = b
    · subst hub
      obtain rfl : resumed = q := Option.some.inj (hResumed.symm.trans hq)
      exact Or.inr (Ne.symm hKeys)
    · exact Or.inl (hProbes u q hq hua hub)

/-- A request that never gets a `Completed`: unless it is aborted, its state
stays in the map. -/
structure Request.Interrupted (p : Shared) (r : Request) : Prop where
  uncompleted : r.stage ≠ .finishing ∧ r.stage.isRemoving = false
  left : ∀ how, r.ended = some how → how ≠ .aborted →
    r.stage = .returned ∨ r.stage.awaited = some .returned
  stays : r.transferStarted = true → r.ended ≠ some .aborted → (p.getState r.key).isSome = true

/-- Without Completed a request neither finishes nor goes on to remove itself. -/
theorem Request.afterUpdate_uncompleted {u : RequestUpdate} (h : u ≠ .completed) :
    r.afterUpdate u ≠ .finishing ∧ (r.afterUpdate u).isRemoving = false := by
  cases u with
  | completed => exact absurd rfl h
  | _ => simp only [afterUpdate]; split <;> exact ⟨by simp, rfl⟩

/-- Up to its first end such a request goes on. -/
theorem Request.Interrupted.open (h : r.Interrupted p) (hStage : r.stage ≠ .returned)
    (hAwaited : r.stage.awaited = none) (how : RequestEnd) (hEnded : r.ended = some how) :
    how = .aborted := by
  by_contra hOther
  rcases h.left how hEnded hOther with hOver | hOver
  · exact hStage hOver
  · rw [hAwaited] at hOver
    cases hOver

/-- One turn without Completed leaves an interrupted request interrupted. -/
theorem Request.Interrupted.turn (h : r.Interrupted p) (hConsistent : r.Consistent)
    (hTurn : r.turn total entryType now p input = some (p', r'))
    (hInput : .completed ∉ input.updates) : r'.Interrupted p' := by
  cases input with
  | update u =>
      simp only [Request.turn] at hTurn
      split at hTurn <;> cases hTurn
      next hStage =>
        have hOpen := h.open (by rw [hStage]; simp) (by rw [hStage]; rfl)
        have hKind : u ≠ .completed := by
          rintro rfl
          exact hInput (List.mem_singleton_self _)
        refine ⟨?_, fun how hEnded hOther => absurd (hOpen how hEnded) hOther, h.stays⟩
        dsimp only
        split
        · exact ⟨by simp, rfl⟩
        · exact afterUpdate_uncompleted hKind
  | closed =>
      simp only [Request.turn] at hTurn
      split at hTurn <;> cases hTurn
      next hStage =>
        have hOpen := h.open (by rw [hStage]; simp) (by rw [hStage]; rfl)
        refine ⟨?_, fun how hEnded hOther => absurd (hOpen how hEnded) hOther, h.stays⟩
        dsimp only
        split <;> exact ⟨by simp, rfl⟩
  | go =>
      cases hStage : r.stage with
      | receiving => simp [Request.turn, hStage] at hTurn
      | returned => simp [Request.turn, hStage] at hTurn
      | finishing => exact absurd hStage h.uncompleted.1
      | removing bytesSent =>
          have hNot := h.uncompleted.2
          rw [hStage] at hNot
          cases hNot
      | inserting u =>
          have hEnded := hConsistent.inserting u hStage
          simp only [Request.turn, hStage] at hTurn
          cases hTurn
          refine ⟨by cases u <;> exact ⟨fun h => (by cases h), rfl⟩, fun how hHow => ?_,
            fun _ _ => ?_⟩
          · cases hEnded.symm.trans hHow
          · rw [Shared.getState_emitStarted]
            exact congrArg Option.isSome (Shared.getState_insertState _)
      | accounting index size =>
          have hOpen := h.open (by rw [hStage]; simp) (by rw [hStage]; rfl)
          simp only [Request.turn, hStage] at hTurn
          cases hTurn
          refine ⟨⟨by simp, rfl⟩, fun how hEnded hOther => absurd (hOpen how hEnded) hOther,
            fun hStarted hNot => ?_⟩
          rw [Shared.getState_modifyState, Option.isSome_map]
          exact h.stays hStarted hNot
      | measuring endOffset =>
          have hOpen := h.open (by rw [hStage]; simp) (by rw [hStage]; rfl)
          have hNext : Interrupted (p.modifyState r.key (.progressBlob endOffset))
              { r with stage := .receiving } := by
            refine ⟨⟨by simp, rfl⟩, fun how hEnded hOther => absurd (hOpen how hEnded) hOther,
              fun hStarted hNot => ?_⟩
            rw [Shared.getState_modifyState, Option.isSome_map]
            exact h.stays hStarted hNot
          simp only [Request.turn, hStage] at hTurn
          split at hTurn <;> cases hTurn
          · exact ⟨hNext.uncompleted, hNext.left, hNext.stays⟩
          · exact hNext
      | aborting =>
          simp only [Request.turn, hStage] at hTurn
          cases hTurn
          exact ⟨⟨by simp, rfl⟩, fun how hHow hOther => absurd (Option.some.inj hHow).symm hOther,
            fun _ hNot => absurd rfl hNot⟩
      | closing =>
          obtain ⟨hEnded, hStarted⟩ := hConsistent.ending (by rw [hStage]; rfl)
          have hStays := h.stays hStarted (by rw [hEnded]; simp)
          simp only [Request.turn, hStage, Request.complete, Request.incomplete] at hTurn
          repeat' split at hTurn
          all_goals cases hTurn
          · exact ⟨⟨by simp, rfl⟩, fun _ _ _ => Or.inr rfl, fun _ _ => hStays⟩
          · exact ⟨⟨by simp, rfl⟩, fun _ _ _ => Or.inl rfl, fun _ _ => hStays⟩
          · exact ⟨⟨by simp, rfl⟩, fun _ _ _ => Or.inl rfl, fun _ _ => hStays⟩
      | sleeping wakeAt activeBeforeWait resume =>
          have hLeft := h.left
          rw [hStage] at hLeft
          simp only [Request.turn, hStage] at hTurn
          split at hTurn <;> cases hTurn
          refine ⟨⟨by simp, rfl⟩, fun how hHow hOther => Or.inr ?_, h.stays⟩
          exact (hLeft how hHow hOther).resolve_left (by simp)
      | checkingStates quiet resume =>
          have hLeft := h.left
          rw [hStage] at hLeft
          simp only [Request.turn, hStage] at hTurn
          cases hTurn
          refine ⟨⟨by simp, rfl⟩, fun how hHow hOther => Or.inr ?_, h.stays⟩
          exact (hLeft how hHow hOther).resolve_left (by simp)
      | checkingLast quiet resume =>
          have hLeft := h.left
          rw [hStage] at hLeft
          obtain ⟨_, hResume⟩ := hConsistent.awaited resume (by rw [hStage]; rfl)
          simp only [Request.turn, hStage] at hTurn
          cases hTurn
          refine ⟨?_, fun how hHow hOther => Or.inl ?_, fun hStarted hNot => ?_⟩
          · rcases hResume with rfl | rfl <;> exact ⟨by simp, rfl⟩
          · exact Option.some.inj ((hLeft how hHow hOther).resolve_left (by simp))
          · have hStays := h.stays hStarted hNot
            split
            · rw [Shared.getState_emitCompleted]
              exact hStays
            · exact hStays

/-- One step leaves the interrupted request interrupted. -/
theorem interrupted_step (hBalanced : Balanced c) (hBefore : Resuming a b body ls c)
    (hAfter : Resuming a b body (ls ++ [l]) d)
    (h : ∀ r, c.requests[a]? = some r → r.Interrupted c.shared)
    (hStep : step total entryType c l = some d) :
    ∀ r, d.requests[a]? = some r → r.Interrupted d.shared := by
  intro r' hr'
  rcases step_origin hStep hr' with ⟨key, isSizesProbe, rfl⟩ | ⟨hRequest, hQuiet⟩ |
    ⟨input, r, hRequest, hAction, hTurn⟩
  · exact ⟨⟨nofun, rfl⟩, nofun, nofun⟩
  · have hState := OwnKey.getState hBefore.ownKey hBalanced hStep hRequest hQuiet
    have hOld := h r' hRequest
    exact ⟨hOld.uncompleted, hOld.left, hState ▸ hOld.stays⟩
  · have hUpdates := hAfter.interrupted
    rw [updatesOf_append, updatesOf_turn hAction] at hUpdates
    exact (h r hRequest).turn (hBalanced.consistent r (List.mem_of_getElem? hRequest)) hTurn
      fun hMem => hUpdates (List.mem_append_right _ hMem)

/-- In every run of a resumed transfer the first request stays interrupted. -/
theorem interrupted_run (hRun : exec (step total entryType) State.idle ls = some c)
    (h : Resuming a b body ls c) : ∀ r, c.requests[a]? = some r → r.Interrupted c.shared := by
  refine @exec_history _ _ (step total entryType)
    (fun ls c => Resuming a b body ls c → ∀ r, c.requests[a]? = some r → r.Interrupted c.shared)
    State.idle ?_ ?_ ls c hRun h
  · rintro _ r hr
    cases hr
  · intro ls m l d hPrior hInv hStep hAfter
    have hBefore := hAfter.before hStep
    exact interrupted_step (balanced_run hPrior) hBefore hAfter (hInv hBefore) hStep

/-- A request that was lost stays lost. -/
theorem lost_step {t : Nat} (hStep : step total entryType c l = some d)
    (h : ∃ r, c.requests[t]? = some r ∧ r.Lost (updatesOf t ls)) :
    ∃ r, d.requests[t]? = some r ∧ r.Lost (updatesOf t (ls ++ [l])) := by
  obtain ⟨r, hr, hLost⟩ := h
  rw [updatesOf_append]
  rcases step_request hStep hr with ⟨hQuiet, hKept⟩ | ⟨input, r', hAction, hTurn, hMoved⟩
  · rw [updatesOf_other hQuiet, List.append_nil]
    exact ⟨r, hKept, hLost⟩
  · obtain ⟨hNone, hNext⟩ := hLost.turn hTurn
    rw [updatesOf_turn hAction, hNone, List.append_nil]
    exact ⟨r', hMoved, hNext⟩

/-- A request that was taken out stays taken out, the same way. -/
theorem step_ended (hBalanced : Balanced c) (hStep : step total entryType c l = some d) {t : Nat}
    (hr : c.requests[t]? = some r) {how : RequestEnd} (hEnded : r.ended = some how) :
    ∃ r', d.requests[t]? = some r' ∧ r'.ended = some how := by
  rcases step_request hStep hr with ⟨_, hKept⟩ | ⟨input, r', _, hTurn, hMoved⟩
  · exact ⟨r, hKept, hEnded⟩
  · have hConsistent := hBalanced.consistent r (List.mem_of_getElem? hr)
    exact ⟨r', hMoved, Request.turn_ended hConsistent hTurn hEnded⟩

/-- A judged request is out of the books. -/
theorem Request.turn_removing (hStage : r.stage.isRemoving = true)
    (h : r.turn total entryType now p .go = some (p', r')) : r'.ended ≠ none := by
  cases hRemoving : r.stage with
  | removing bytesSent =>
      simp only [turn, hRemoving, complete, incomplete] at h
      repeat' split at h
      all_goals cases h
      all_goals simp
  | _ =>
      rw [hRemoving] at hStage
      cases hStage

/-- Once the resumed request was judged after the abort, both have ended so. -/
theorem judged_after_abort_ended (hRun : exec (step total entryType) State.idle ls = some c)
    (h : Hits (step total entryType) (JudgedAfterAbort a b) State.idle ls) :
    (∃ r, c.requests[a]? = some r ∧ r.ended = some .aborted) ∧
      ∃ r, c.requests[b]? = some r ∧ r.ended ≠ none := by
  refine @exec_history _ _ (step total entryType)
    (fun ls c => Hits (step total entryType) (JudgedAfterAbort a b) State.idle ls →
      (∃ r, c.requests[a]? = some r ∧ r.ended = some .aborted) ∧
        ∃ r, c.requests[b]? = some r ∧ r.ended ≠ none) State.idle nofun ?_ ls c hRun h
  intro ls m l d hPrior hInv hStep hHits
  have hBalanced := balanced_run hPrior
  rcases (hits_concat hPrior).mp hHits with hOld | ⟨hAction, ⟨r, hr, hRemoving⟩, q, hq, hAborted⟩
  · obtain ⟨⟨q, hq, hAborted⟩, r, hr, hEnded⟩ := hInv hOld
    refine ⟨step_ended hBalanced hStep hq hAborted, ?_⟩
    obtain ⟨how, hHow⟩ := Option.ne_none_iff_exists'.mp hEnded
    obtain ⟨r', hr', hEnded'⟩ := step_ended hBalanced hStep hr hHow
    exact ⟨r', hr', by rw [hEnded']; nofun⟩
  · refine ⟨step_ended hBalanced hStep hq hAborted, ?_⟩
    rcases step_request hStep hr with ⟨hQuiet, _⟩ | ⟨input, r', hTurned, hTurn, hMoved⟩
    · exact absurd hAction (hQuiet .go)
    · cases hAction.symm.trans hTurned
      exact ⟨r', hMoved, Request.turn_removing hRemoving hTurn⟩

/-- The event comes from a check that found everything quiet. -/
theorem Request.turn_emits (h : r.turn total entryType now p input = some (p', r'))
    (hEvent : SendEvent.transferCompleted ∈ p'.events) :
    SendEvent.transferCompleted ∈ p.events ∨ ∃ resume, r.stage = .checkingLast true resume := by
  rcases turn_events h hEvent with hOld | hAwaited
  · exact Or.inl hOld
  · cases input with
    | update u =>
        simp only [turn] at h
        split at h <;> cases h
        exact Or.inl hEvent
    | closed =>
        simp only [turn] at h
        split at h <;> cases h
        exact Or.inl hEvent
    | go =>
        cases hStage : r.stage with
        | sleeping wakeAt activeBeforeWait resume =>
            simp only [turn, hStage] at h
            split at h <;> cases h
            exact Or.inl hEvent
        | checkingStates quiet resume =>
            simp only [turn, hStage] at h
            cases h
            exact Or.inl hEvent
        | checkingLast quiet resume =>
            cases quiet with
            | true => exact Or.inr ⟨resume, rfl⟩
            | false =>
                simp only [turn, hStage] at h
                cases h
                exact Or.inl hEvent
        | _ =>
            rw [hStage] at hAwaited
            exact absurd rfl hAwaited

/-- Such a check comes after one that found the map empty. -/
theorem Request.turn_checking {resume : RequestStage} (hConsistent : r.Consistent)
    (h : r.turn total entryType now p input = some (p', r'))
    (hStage' : r'.stage = .checkingLast true resume) :
    r.stage.awaited ≠ none ∧ p.transferStates = [] := by
  cases input with
  | update u =>
      simp only [turn] at h
      split at h <;> cases h
      dsimp only at hStage'
      split at hStage'
      · cases hStage'
      · have hAwaited := afterUpdate_awaited (r := r) u
        rw [hStage'] at hAwaited
        cases hAwaited
  | closed =>
      simp only [turn] at h
      split at h <;> cases h
      dsimp only at hStage'
      split at hStage' <;> cases hStage'
  | go =>
      cases hStage : r.stage with
      | receiving => simp [turn, hStage] at h
      | returned => simp [turn, hStage] at h
      | inserting u =>
          simp only [turn, hStage] at h
          cases h
          cases u <;> cases hStage'
      | checkingStates quiet awaited =>
          simp only [turn, hStage] at h
          cases h
          refine ⟨Option.some_ne_none _, ?_⟩
          simp only [RequestStage.checkingLast.injEq, Bool.and_eq_true] at hStage'
          exact List.isEmpty_iff.mp hStage'.1.2
      | checkingLast quiet awaited =>
          obtain ⟨_, hResume⟩ := hConsistent.awaited awaited (by rw [hStage]; rfl)
          simp only [turn, hStage] at h
          cases h
          rcases hResume with rfl | rfl <;> cases hStage'
      | _ =>
          simp only [turn, hStage, complete, incomplete] at h
          repeat' split at h
          all_goals cases h
          all_goals cases hStage'

/-- A request begins to wait when it is judged and no other counts as active. -/
theorem Request.turn_awaits
    (h : r.turn total entryType now p input = some (p', r')) (hAwaits : r'.stage.awaited ≠ none) :
    r.stage.awaited ≠ none ∨ input = .go ∧ r'.isDelivered = true ∧
      p'.activeRequests ≤ p'.completedRequests ∧
      (r.stage.isRemoving = true ∨ r.stage = .closing) := by
  cases input with
  | update u =>
      simp only [turn] at h
      split at h <;> cases h
      dsimp only at hAwaits
      split at hAwaits
      · exact absurd rfl hAwaits
      · exact absurd (afterUpdate_awaited u) hAwaits
  | closed =>
      simp only [turn] at h
      split at h <;> cases h
      dsimp only at hAwaits
      split at hAwaits <;> exact absurd rfl hAwaits
  | go =>
      cases hStage : r.stage with
      | receiving => simp [turn, hStage] at h
      | returned => simp [turn, hStage] at h
      | inserting u =>
          simp only [turn, hStage] at h
          cases h
          exact absurd (afterInsert_quiet u).2.1 hAwaits
      | sleeping wakeAt activeBeforeWait resume => exact Or.inl (Option.some_ne_none _)
      | checkingStates quiet resume => exact Or.inl (Option.some_ne_none _)
      | checkingLast quiet resume => exact Or.inl (Option.some_ne_none _)
      | removing bytesSent =>
          simp only [turn, hStage, complete, incomplete] at h
          split at h
          · split at h <;> cases h
            · next hCounted => exact Or.inr ⟨rfl, rfl, hCounted, Or.inl rfl⟩
            · exact absurd rfl hAwaits
          · cases h
            exact absurd rfl hAwaits
      | closing =>
          simp only [turn, hStage, complete, incomplete] at h
          split at h
          · split at h <;> cases h
            · next hCounted => exact Or.inr ⟨rfl, rfl, hCounted, Or.inr rfl⟩
            · exact absurd rfl hAwaits
          · cases h
            exact absurd rfl hAwaits
      | measuring endOffset =>
          simp only [turn, hStage] at h
          split at h <;> cases h <;> exact absurd rfl hAwaits
      | _ =>
          simp only [turn, hStage] at h
          cases h
          exact absurd rfl hAwaits

/-- What the claim of a completed transfer rests on. -/
def Complete (total : UInt64) (entryType : String) (a b : Nat) (body : List RequestUpdate)
    (ls : List Label) : Prop :=
  Hits (step total entryType) (JudgedAfterAbort a b) State.idle ls ∧
    transferPayloadComplete (accountedFor total entryType (startedBlobs body)) total = true

/-- What is complete stays so when the run goes on. -/
theorem Complete.later (h : Complete total entryType a b body ls)
    (hRun : exec (step total entryType) State.idle ls = some c) (l : Label) :
    Complete total entryType a b body (ls ++ [l]) :=
  ⟨(hits_concat hRun).mpr (Or.inl h.1), h.2⟩

/-- The first request has ended with its stream, so its state is still there. -/
def Blocked (a : Nat) (c : State) : Prop :=
  ∃ q, c.requests[a]? = some q ∧ q.ended ≠ none ∧ q.ended ≠ some .aborted

/-- Without it the event is not out and no check will emit it. -/
structure Silent (total : UInt64) (entryType : String) (a b : Nat) (body : List RequestUpdate)
    (ls : List Label) (c : State) : Prop where
  emitted : SendEvent.transferCompleted ∈ c.shared.events → Complete total entryType a b body ls
  waiting : ∀ r ∈ c.requests, r.stage.awaited ≠ none →
    Complete total entryType a b body ls ∨ Blocked a c
  checking : ∀ r ∈ c.requests, ∀ resume, r.stage = .checkingLast true resume →
    Complete total entryType a b body ls

/-- A blocked run stays blocked over one step. -/
theorem Blocked.later (h : Blocked a c) (hBalanced : Balanced c)
    (hStep : step total entryType c l = some d) : Blocked a d := by
  obtain ⟨q, hq, hEnded, hNot⟩ := h
  obtain ⟨how, hHow⟩ := Option.ne_none_iff_exists'.mp hEnded
  obtain ⟨q', hq', hHow'⟩ := step_ended hBalanced hStep hq hHow
  exact ⟨q', hq', by rw [hHow']; nofun, by rw [hHow', ← hHow]; exact hNot⟩

/-- A blocked run has an entry left in the books. -/
theorem Blocked.states (h : Blocked a c) (hBalanced : Balanced c)
    (hInterrupted : ∀ r, c.requests[a]? = some r → r.Interrupted c.shared) :
    c.shared.transferStates ≠ [] := by
  obtain ⟨q, hq, hEnded, hNot⟩ := h
  intro hNone
  have hStarted := (hBalanced.consistent q (List.mem_of_getElem? hq)).started hEnded
  have hStays := (hInterrupted q hq).stays hStarted hNot
  rw [Shared.getState, hNone] at hStays
  cases hStays

theorem Tracks.closing {us : List RequestUpdate} {entry : Option TransferState}
    (h : Tracks total entryType body us entry r) (hConsistent : r.Consistent)
    (hStage : r.stage = .closing) : r.Lost us := by
  cases h with
  | fresh _ hStage' _ _ => cases hStage.symm.trans hStage'
  | inserting u _ _ hStage' _ => cases hStage.symm.trans hStage'
  | live s entered taken _ hStage' _ _ _ _ _ =>
      rw [hStage] at hStage'
      cases hStage'
  | removing _ hStage' _ => cases hStage.symm.trans hStage'
  | judged _ hEnded => cases hEnded.symm.trans (hConsistent.ending (by rw [hStage]; rfl)).1
  | lost hLost => exact hLost

theorem Tracks.delivered {us : List RequestUpdate} {entry : Option TransferState}
    (h : Tracks total entryType body us entry r) (hDelivered : r.isDelivered = true) :
    r.Lost us ∨
      transferPayloadComplete (accountedFor total entryType (startedBlobs body)) total = true := by
  have hEnded : r.ended ≠ none := by
    intro hNone
    rw [Request.isDelivered, hNone] at hDelivered
    cases hDelivered
  cases h with
  | fresh _ _ _ hOpen => exact absurd hOpen hEnded
  | inserting u _ _ _ hOpen => exact absurd hOpen hEnded
  | live s entered taken _ _ _ hOpen _ _ _ => exact absurd hOpen hEnded
  | removing _ _ hOpen => exact absurd hOpen hEnded
  | judged _ hJudged =>
      right
      rw [Request.isDelivered, hJudged, judgement] at hDelivered
      by_contra hPart
      rw [if_neg hPart] at hDelivered
      cases hDelivered
  | lost hLost => exact Or.inl hLost

/-- The stream of the request has closed before its `Completed`. -/
def LostAt (t : Nat) (ls : List Label) (c : State) : Prop :=
  ∃ r, c.requests[t]? = some r ∧ r.Lost (updatesOf t ls)

/-- A request that begins to wait is the resumed one, rightly or with the first
request's state still in the map, or the first one with its own state there. -/
theorem awaits_begin {u : Nat} (hOrder : a < b)
    (hRun : exec (step total entryType) State.idle ls = some c)
    (hAfter : Resuming a b body (ls ++ [l]) d) (hStep : step total entryType c l = some d)
    (hTracked : Tracked total entryType b body ls c)
    (hTracked' : Tracked total entryType b body (ls ++ [l]) d) (hr : c.requests[u]? = some r)
    (hr' : d.requests[u]? = some r') (hAction : l.action = .turn u .go)
    (hDelivered : r'.isDelivered = true)
    (hCounted : d.shared.activeRequests ≤ d.shared.completedRequests)
    (hStage : r.stage.isRemoving = true ∨ r.stage = .closing) :
    LostAt b (ls ++ [l]) d ∨ Complete total entryType a b body (ls ++ [l]) ∨ Blocked a d := by
  have hBalanced := balanced_run hRun
  have hBalanced' := balanced_step hBalanced hStep
  by_cases hua : u = a
  · subst hua
    obtain ⟨bytesSent, hEnded⟩ := Request.isDelivered_iff.mp hDelivered
    exact Or.inr (Or.inr ⟨r', hr', by rw [hEnded]; nofun, by rw [hEnded]; nofun⟩)
  by_cases hub : u = b
  · subst hub
    rcases hTracked' with ⟨hNone, _⟩ | ⟨q, hq, hTracks'⟩
    · rw [hNone] at hr'
      cases hr'
    obtain rfl : r' = q := Option.some.inj (hr'.symm.trans hq)
    rcases hTracks'.delivered hDelivered with hLost | hFull
    · exact Or.inl ⟨r', hr', hLost⟩
    rcases hStage with hRemoving | hClosing
    · right
      -- the counters say that the first request is not in the books any more
      have hLength := (List.getElem?_eq_some_iff.mp hr).1
      obtain ⟨first, hFirst⟩ : ∃ first, c.requests[a]? = some first :=
        ⟨_, List.getElem?_eq_getElem (Nat.lt_trans hOrder hLength)⟩
      rcases step_request hStep hFirst with ⟨_, hKept⟩ | ⟨input, _, hTurned, _, _⟩
      · have hNone : d.requests.countP Request.held = 0 := by
          have hActive := hBalanced'.active
          omega
        have hFree := List.countP_eq_zero.mp hNone first (List.mem_of_getElem? hKept)
        have hEnded : first.ended ≠ none := by
          intro hOpen
          rw [Request.held, hAfter.first first hKept, hOpen] at hFree
          exact hFree rfl
        by_cases hAborted : first.ended = some .aborted
        · refine Or.inl ⟨(hits_concat hRun).mpr (Or.inr ?_), hFull⟩
          exact ⟨hAction, ⟨r, hr, hRemoving⟩, first, hFirst, hAborted⟩
        · exact Or.inr ⟨first, hKept, hEnded, hAborted⟩
      · cases hAction.symm.trans hTurned
        exact absurd rfl hua
    · rcases hTracked with ⟨hNone, _⟩ | ⟨q, hq, hTracks⟩
      · rw [hNone] at hr
        cases hr
      · obtain rfl : r = q := Option.some.inj (hr.symm.trans hq)
        have hConsistent := hBalanced.consistent r (List.mem_of_getElem? hr)
        exact Or.inl (lost_step hStep ⟨r, hr, hTracks.closing hConsistent hClosing⟩)
  · have hProbe := hAfter.probes u r' hr' hua hub
    have hConsistent := hBalanced'.consistent r' (List.mem_of_getElem? hr')
    rw [Request.isDelivered, (hConsistent.probe hProbe).1] at hDelivered
    cases hDelivered

/-- One step without a loss keeps the run silent about completion. -/
theorem silent_step (hOrder : a < b) (hRun : exec (step total entryType) State.idle ls = some c)
    (hBefore : Resuming a b body ls c) (hAfter : Resuming a b body (ls ++ [l]) d)
    (hTracked : Tracked total entryType b body ls c)
    (hTracked' : Tracked total entryType b body (ls ++ [l]) d)
    (hStep : step total entryType c l = some d) (h : Silent total entryType a b body ls c) :
    LostAt b (ls ++ [l]) d ∨ Silent total entryType a b body (ls ++ [l]) d := by
  have hBalanced := balanced_run hRun
  have hInterrupted := interrupted_run hRun hBefore
  by_cases hLost : LostAt b (ls ++ [l]) d
  · exact Or.inl hLost
  refine Or.inr ⟨fun hEvent => ?_, fun r' hMem hAwaits => ?_, fun r' hMem resume hStage => ?_⟩
  · rcases step_cases hStep with ⟨message, _, rfl⟩ |
      ⟨t, input, r, r', shared, _, hRequest, hTurn, rfl⟩ | ⟨_, rfl⟩ | ⟨hAction, _, rfl⟩
    · exact (h.emitted (c.receive_events l.now message hEvent)).later hRun l
    · rcases Request.turn_emits hTurn hEvent with hOld | ⟨resume, hStage⟩
      · exact (h.emitted hOld).later hRun l
      · exact (h.checking r (List.mem_of_getElem? hRequest) resume hStage).later hRun l
    · exact (h.emitted hEvent).later hRun l
    · exact absurd hAction (step_running hStep hAfter.running).2
  · obtain ⟨u, hr'⟩ := List.mem_iff_getElem?.mp hMem
    have hOld {r : Request} (hr : c.requests[u]? = some r) (hWaited : r.stage.awaited ≠ none) :
        Complete total entryType a b body (ls ++ [l]) ∨ Blocked a d :=
      (h.waiting r (List.mem_of_getElem? hr) hWaited).imp (fun hDone => hDone.later hRun l)
        fun hBlocked => hBlocked.later hBalanced hStep
    rcases step_origin hStep hr' with ⟨key, isSizesProbe, rfl⟩ | ⟨hr, _⟩ |
      ⟨input, r, hr, hAction, hTurn⟩
    · exact absurd rfl hAwaits
    · exact hOld hr hAwaits
    · rcases Request.turn_awaits hTurn hAwaits with hWaited | ⟨rfl, hDelivered, hCounted, hStage⟩
      · exact hOld hr hWaited
      · exact (awaits_begin hOrder hRun hAfter hStep hTracked hTracked' hr hr' hAction
          hDelivered hCounted hStage).resolve_left hLost
  · obtain ⟨u, hr'⟩ := List.mem_iff_getElem?.mp hMem
    rcases step_origin hStep hr' with ⟨key, isSizesProbe, rfl⟩ | ⟨hr, _⟩ | ⟨input, r, hr, _, hTurn⟩
    · cases hStage
    · exact (h.checking r' (List.mem_of_getElem? hr) resume hStage).later hRun l
    · have hThere := List.mem_of_getElem? hr
      have hConsistent := hBalanced.consistent r hThere
      obtain ⟨hWaited, hStates⟩ := Request.turn_checking hConsistent hTurn hStage
      rcases h.waiting r hThere hWaited with hDone | hBlocked
      · exact hDone.later hRun l
      · exact absurd hStates (hBlocked.states hBalanced hInterrupted)

/-- In every run of a resumed transfer its second request was lost, or no completion is
out that nothing entitles to. -/
theorem silent_run (hOrder : a < b) (hBody : Orderly entryType body)
    (hRun : exec (step total entryType) State.idle ls = some c) (h : Resuming a b body ls c) :
    LostAt b ls c ∨ Silent total entryType a b body ls c := by
  refine @exec_history _ _ (step total entryType)
    (fun ls c => Resuming a b body ls c → LostAt b ls c ∨ Silent total entryType a b body ls c)
    State.idle ?_ ?_ ls c hRun h
  · exact fun _ => Or.inr ⟨nofun, nofun, nofun⟩
  · intro ls m l d hPrior hInv hStep hAfter
    have hBefore := hAfter.before hStep
    rcases hInv hBefore with hLost | hSilent
    · exact Or.inl (lost_step hStep hLost)
    · have hLast := exec_concat_eq_some.mpr ⟨m, hPrior, hStep⟩
      exact silent_step hOrder hPrior hBefore hAfter (tracked_run hBody hPrior hBefore.follows)
        (tracked_run hBody hLast hAfter.follows) hStep hSilent

/-- The resumed request was judged before the first one was aborted, or one of
the two was lost. -/
def Astray (total : UInt64) (entryType : String) (a b : Nat) (ls : List Label) (c : State) :
    Prop :=
  (¬Hits (step total entryType) (JudgedAfterAbort a b) State.idle ls ∧
      ∃ r, c.requests[b]? = some r ∧ r.ended ≠ none) ∨
    LostAt a ls c ∨ LostAt b ls c

/-- What went astray stays so when the run goes on. -/
theorem Astray.later (h : Astray total entryType a b ls c)
    (hRun : exec (step total entryType) State.idle ls = some c)
    (hStep : step total entryType c l = some d) : Astray total entryType a b (ls ++ [l]) d := by
  have hBalanced := balanced_run hRun
  rcases h with ⟨hNot, r, hr, hEnded⟩ | hLost | hLost
  · obtain ⟨how, hHow⟩ := Option.ne_none_iff_exists'.mp hEnded
    obtain ⟨r', hr', hHow'⟩ := step_ended hBalanced hStep hr hHow
    refine Or.inl ⟨fun hHits => ?_, r', hr', by rw [hHow']; nofun⟩
    rcases (hits_concat hRun).mp hHits with hOld | ⟨_, ⟨q, hq, hRemoving⟩, _⟩
    · exact hNot hOld
    · obtain rfl : r = q := Option.some.inj (hr.symm.trans hq)
      have hConsistent := hBalanced.consistent r (List.mem_of_getElem? hr)
      refine hEnded (hConsistent.ending ?_).1
      cases hStage : r.stage with
      | removing bytesSent => rfl
      | _ =>
          rw [hStage] at hRemoving
          cases hRemoving
  · exact Or.inr (Or.inl (lost_step hStep hLost))
  · exact Or.inr (Or.inr (lost_step hStep hLost))

/-- A stream that closes before the request was taken out leaves it lost. -/
theorem Request.turn_closed_lost {us : List RequestUpdate} (hUpdates : .completed ∉ us)
    (hEnded : r.ended = none) (h : r.turn total entryType now p .closed = some (p', r')) :
    r'.Lost us := by
  simp only [turn] at h
  split at h <;> cases h
  refine ⟨hUpdates, by rw [hEnded]; simp, ?_⟩
  dsimp only
  split
  · exact Or.inl rfl
  · exact Or.inr (Or.inl rfl)

/-- A request whose stream is still read has not had its `Completed`. -/
theorem Tracks.receiving {us : List RequestUpdate} {entry : Option TransferState}
    (h : Tracks total entryType body us entry r) (hStage : r.stage = .receiving)
    (hOpen : r.ended = none) : .completed ∉ us := by
  cases h with
  | fresh hUpdates _ _ _ =>
      subst hUpdates
      nofun
  | inserting u _ _ hStage' _ => cases hStage.symm.trans hStage'
  | live s entered taken hUpdates hStage' _ _ hUncompleted _ _ =>
      rw [hStage] at hStage'
      cases hStage'
      rw [hUpdates, List.append_nil]
      exact hUncompleted
  | removing _ hStage' _ => cases hStage.symm.trans hStage'
  | judged _ hEnded => cases hEnded.symm.trans hOpen
  | lost hLost => exact hLost.uncompleted

/-- Before any stream closes too early. -/
theorem closes_or_lost (hBefore : Resuming a b body ls c) (hTracked : Tracked total entryType b body ls c)
    (hStep : step total entryType c l = some d) :
    ClosesAfterEnd c l ∨ LostAt a (ls ++ [l]) d ∨ LostAt b (ls ++ [l]) d := by
  by_cases hEnds : ∀ t, l.action = .turn t .closed → ∀ r ∈ c.requests[t]?,
      r.isSizesProbe = true ∨ r.ended ≠ none
  · left
    rw [ClosesAfterEnd]
    split
    · next t hAction => exact hEnds t hAction
    · trivial
  right
  push Not at hEnds
  obtain ⟨t, hAction, r, hr, hPayload, hOpen⟩ := hEnds
  rcases step_request hStep hr with ⟨hQuiet, _⟩ | ⟨input, r', hTurned, hTurn, hMoved⟩
  · exact absurd hAction (hQuiet .closed)
  cases hAction.symm.trans hTurned
  have hSame : updatesOf t (ls ++ [l]) = updatesOf t ls := by
    rw [updatesOf_append, updatesOf_turn hAction]
    exact List.append_nil _
  by_cases hta : t = a
  · subst hta
    refine Or.inl ⟨r', hMoved, ?_⟩
    rw [hSame]
    exact Request.turn_closed_lost hBefore.interrupted hOpen hTurn
  by_cases htb : t = b
  · subst htb
    refine Or.inr ⟨r', hMoved, ?_⟩
    rw [hSame]
    rcases hTracked with ⟨hNone, _⟩ | ⟨q, hq, hTracks⟩
    · rw [hNone] at hr
      cases hr
    · obtain rfl : r = q := Option.some.inj (hr.symm.trans hq)
      have hStage : r.stage = .receiving := by
        simp only [Request.turn] at hTurn
        split at hTurn
        · assumption
        · cases hTurn
      exact Request.turn_closed_lost (hTracks.receiving hStage hOpen) hOpen hTurn
  · exact absurd (hBefore.probes t r hr hta htb) hPayload

/-- A request that leaves undelivered does so while none was delivered. -/
theorem leaves_or_astray (hRun : exec (step total entryType) State.idle ls = some c)
    (hBefore : Resuming a b body ls c) (hTracked : Tracked total entryType b body ls c) {t : Nat}
    (hr : c.requests[t]? = some r) (hLeaves : r.leavesUndelivered total = true) :
    (∀ q ∈ c.requests, q.isDelivered = false) ∨ Astray total entryType a b ls c := by
  have hBalanced := balanced_run hRun
  have hConsistent := hBalanced.consistent r (List.mem_of_getElem? hr)
  have hEnding : r.stage.isEnding = true := by
    cases hStage : r.stage with
    | removing bytesSent => rfl
    | aborting => rfl
    | _ =>
        rw [Request.leavesUndelivered, hStage] at hLeaves
        cases hLeaves
  have hOpen := (hConsistent.ending hEnding).1
  have hPayload := hConsistent.payload (RequestStage.isEnding_busy hEnding)
  by_cases hNobody : ∀ q ∈ c.requests, q.isDelivered = false
  · exact Or.inl hNobody
  right
  push Not at hNobody
  obtain ⟨q, hMem, hDelivered⟩ := hNobody
  obtain ⟨bytesSent, hEnded⟩ := Request.isDelivered_iff.mp (by simpa using hDelivered)
  obtain ⟨u, hq⟩ := List.mem_iff_getElem?.mp hMem
  by_cases hua : u = a
  · subst hua
    refine Or.inr (Or.inl ⟨q, hq, hBefore.interrupted, by rw [hEnded]; simp, Or.inr ?_⟩)
    exact (interrupted_run hRun hBefore q hq).left _ hEnded (by simp)
  by_cases hub : u = b
  · subst hub
    refine Or.inl ⟨fun hHits => ?_, q, hq, by rw [hEnded]; simp⟩
    obtain ⟨⟨first, hFirst, hAborted⟩, _⟩ := judged_after_abort_ended hRun hHits
    by_cases hta : t = a
    · subst hta
      obtain rfl : r = first := Option.some.inj (hr.symm.trans hFirst)
      cases hOpen.symm.trans hAborted
    · have htb : t ≠ u := by
        rintro rfl
        obtain rfl : r = q := Option.some.inj (hr.symm.trans hq)
        cases hOpen.symm.trans hEnded
      rw [hBefore.probes t r hr hta htb] at hPayload
      cases hPayload
  · have hProbe := hBefore.probes u q hq hua hub
    rw [((hBalanced.consistent q hMem).probe hProbe).1] at hEnded
    cases hEnded

/-- In every run completion was reported, is about to be, or something went astray. -/
theorem prompt_run (hBody : Orderly entryType body)
    (hRun : exec (step total entryType) State.idle ls = some c) (h : Resuming a b body ls c) :
    c.shared.hasEmittedCompleted = true ∨ Prompt c ∨ Astray total entryType a b ls c := by
  refine @exec_history _ _ (step total entryType)
    (fun ls c => Resuming a b body ls c →
      c.shared.hasEmittedCompleted = true ∨ Prompt c ∨ Astray total entryType a b ls c)
    State.idle ?_ ?_ ls c hRun h
  · exact fun _ => Or.inr (Or.inl prompt_idle)
  · intro ls m l d hPrior hInv hStep hAfter
    have hBefore := hAfter.before hStep
    have hTracked := tracked_run hBody hPrior hBefore.follows
    rcases hInv hBefore with hOut | hPrompt | hAstray
    · exact Or.inl ((extends_step hStep).1 hOut)
    · by_cases hAstray : Astray total entryType a b ls m
      · exact Or.inr (Or.inr (hAstray.later hPrior hStep))
      rcases closes_or_lost hBefore hTracked hStep with hCloses | hLost
      · refine (prompt_step hPrompt hCloses (fun t _ r hr hLeaves => Or.inl ?_) hStep).imp_right
          Or.inl
        exact (leaves_or_astray hPrior hBefore hTracked hr hLeaves).resolve_right hAstray
      · exact Or.inr (Or.inr (Or.inr hLost))
    · exact Or.inr (Or.inr (hAstray.later hPrior hStep))

/-- With both requests ended nothing is left that the event could wait for. -/
theorem Prompt.not_over (h : Prompt c) (hResuming : Resuming a b body ls c)
    (hAborted : ∃ r, c.requests[a]? = some r ∧ r.ended = some .aborted)
    (hResumed : ∃ r, c.requests[b]? = some r ∧ r.stage = .returned ∧ r.isDelivered = true) :
    False := by
  obtain ⟨first, hFirst, hAborted⟩ := hAborted
  obtain ⟨resumed, hResumed, hOver, hDelivered⟩ := hResumed
  have hCases (r : Request) (hMem : r ∈ c.requests) : r = first ∨ r = resumed ∨
      r.isSizesProbe = true := by
    obtain ⟨t, hr⟩ := List.mem_iff_getElem?.mp hMem
    by_cases hta : t = a
    · subst hta
      exact Or.inl (Option.some.inj (hr.symm.trans hFirst))
    by_cases htb : t = b
    · subst htb
      exact Or.inr (Or.inl (Option.some.inj (hr.symm.trans hResumed)))
    · exact Or.inr (Or.inr (hResuming.probes t r hr hta htb))
  rcases h.pending ⟨resumed, List.mem_of_getElem? hResumed, hDelivered⟩ with
    hHeld | ⟨r, hMem, hPasses⟩
  · obtain ⟨r, hMem, hHeld⟩ := List.countP_pos_iff.mp hHeld
    rcases hCases r hMem with rfl | rfl | hProbe
    · rw [Request.held, hAborted, Option.isNone_some, Bool.and_false] at hHeld
      cases hHeld
    · rw [h.released.returned r hMem hOver] at hHeld
      cases hHeld
    · rw [Request.held, hProbe] at hHeld
      cases hHeld
  · have hConsistent := h.released.balanced.consistent r hMem
    have hAwaits : r.stage.awaited ≠ none := by
      rw [Request.Passes] at hPasses
      split at hPasses
      · next hStage => exact hStage ▸ Option.some_ne_none _
      · next hStage => exact hStage ▸ Option.some_ne_none _
      · next hStage => exact hStage ▸ Option.some_ne_none _
      · exact hPasses.elim
    obtain ⟨resume, hResume⟩ := Option.ne_none_iff_exists'.mp hAwaits
    obtain ⟨⟨bytesSent, hEnded⟩, _⟩ := hConsistent.awaited resume hResume
    rcases hCases r hMem with rfl | rfl | hProbe
    · cases hAborted.symm.trans hEnded
    · rw [hOver] at hAwaits
      exact hAwaits rfl
    · cases (hConsistent.probe hProbe).1.symm.trans hEnded

/-- However a download is split into an interrupted and a resumed request, the
sender counts the transfer as complete and says so exactly when it saw the first
one aborted before it judged the second, and the blobs that were asked for again
are at least 95 percent of the payload. -/
theorem resumed_transfer_completed (share : Collection)
    (hRun : exec (step share.totalCollectionSize entryType) State.idle ls = some c)
    (h : Resumed share a b body ls c) :
    ((∃ r, c.requests[b]? = some r ∧ r.isDelivered = true) ∧
        SendEvent.transferCompleted ∈ c.shared.events) ↔
      Hits (step share.totalCollectionSize entryType) (JudgedAfterAbort a b) State.idle ls ∧
        transferPayloadComplete
          (accountedFor share.totalCollectionSize entryType (share.missing (updatesOf a ls)))
          share.totalCollectionSize = true := by
  have hBody := h.orderly entryType
  have hResuming := h.resuming
  obtain ⟨first, _, resumed, hResumed, _, _, _, hOver⟩ := h.requests
  have hJudged := completed_judged hBody hRun hResuming.follows h.completes hResumed hOver
  have hNotLost : ¬LostAt b ls c := by
    rintro ⟨r, _, hLost⟩
    exact hLost.uncompleted (by simp [h.completes])
  rw [← h.asked]
  constructor
  · rintro ⟨_, hEvent⟩
    exact ((silent_run h.order hBody hRun hResuming).resolve_left hNotLost).emitted hEvent
  · rintro ⟨hHits, hFull⟩
    have hDelivered : resumed.isDelivered = true := by
      rw [Request.isDelivered, hJudged, judgement, if_pos hFull]
    obtain ⟨hAborted, _⟩ := judged_after_abort_ended hRun hHits
    have hMarked : c.shared.Marked :=
      @exec_invariant _ _ _ (fun c => c.shared.Marked)
        (fun _ _ _ h hStep => (extends_step hStep).2 h) _ _ _ hRun
        (fun hEmitted => by cases hEmitted)
    refine ⟨⟨resumed, hResumed, hDelivered⟩, hMarked ?_⟩
    rcases prompt_run hBody hRun hResuming with hOut | hPrompt | ⟨hNot, _⟩ | hLost | hLost
    · exact hOut
    · exact (hPrompt.not_over hResuming hAborted ⟨resumed, hResumed, hOver, hDelivered⟩).elim
    · exact absurd hHits hNot
    · obtain ⟨r, hr, hLost⟩ := hLost
      obtain ⟨q, hq, hEnded⟩ := hAborted
      obtain rfl : r = q := Option.some.inj (hr.symm.trans hq)
      exact absurd hEnded hLost.notAborted
    · exact absurd hLost hNotLost

end

/-- An update and the turn that enters it. -/
def takes (t now : Nat) (u : RequestUpdate) : List Label :=
  [⟨now, .turn t (.update u)⟩, ⟨now, .turn t .go⟩]

/-- The connection breaks while the second file is sent, and the resumed
request asks for that file. -/
def resumedRun (small large : UInt64) : List Label :=
  ⟨0, .message (.getRequestReceived (1, 0) true)⟩ :: ⟨0, .turn 0 .closed⟩ ::
    ⟨0, .message (.getRequestReceived (1, 1) false)⟩ :: takes 1 0 (.started 0 96) ++
    ⟨0, .turn 1 .go⟩ :: takes 1 0 (.started 1 60) ++ takes 1 1 (.started 2 small) ++
    takes 1 2 (.started 3 large) ++ takes 1 3 (.progress 300) ++ takes 1 4 .aborted ++
    ⟨4, .turn 1 .closed⟩ :: ⟨5, .message (.getRequestReceived (2, 1) false)⟩ ::
    takes 2 5 (.started 3 large) ++ ⟨5, .turn 2 .go⟩ :: takes 2 6 (.progress large) ++
    takes 2 7 .completed ++ [⟨7, .turn 2 .go⟩]

def resumedBody (large : UInt64) : List RequestUpdate := [.started 3 large, .progress large]

/-- The file that is sent again is nearly all of the payload. -/
def largeFile : Collection := ⟨96, 60, [20, 980], 1000, by decide, by decide⟩

def largeFileResumed : List Label :=
  resumedRun 20 980 ++
    [⟨507, .turn 2 .go⟩, ⟨507, .turn 2 .go⟩, ⟨507, .turn 2 .go⟩, ⟨507, .turn 2 .closed⟩]

theorem resumed_transfer_completed_largeFile : ∃ c,
    exec (step 1000 "collection") State.idle largeFileResumed = some c ∧
      SendEvent.transferCompleted ∈ c.shared.events := by
  have hRuns : ∃ c, exec (step 1000 "collection") State.idle largeFileResumed = some c ∧
      (∃ first ∈ c.requests[1]?, ∃ resumed ∈ c.requests[2]?, first.isSizesProbe = false ∧
        resumed.isSizesProbe = false ∧ first.key ≠ resumed.key ∧ resumed.stage = .returned) ∧
      (∀ t (ht : t < c.requests.length), t ≠ 1 → t ≠ 2 → c.requests[t].isSizesProbe = true) ∧
      c.loop ≠ .returned := by
    decide
  obtain ⟨c, hRun, hRequests, hProbes, hRunning⟩ := hRuns
  have hResumed : Resumed largeFile 1 2 (resumedBody 980) largeFileResumed c :=
    ⟨by decide, hRequests, hProbes, by decide, by decide, by decide,
      by decide, by decide, hRunning⟩
  exact ⟨c, hRun, ((resumed_transfer_completed largeFile hRun hResumed).mpr (by decide)).2⟩

/-- The file that is sent again is half of the payload: the two requests
together delivered all of it, and neither counts as the transfer. -/
theorem resumed_transfer_missed :
    ¬∀ (share : Collection) (entryType : String) (a b : Nat) (body : List RequestUpdate)
      (ls : List Label) (c : State), 2 ≤ share.files.length →
      exec (step share.totalCollectionSize entryType) State.idle ls = some c →
      Resumed share a b body ls c →
      (∃ r, c.requests[b]? = some r ∧ r.isDelivered = true) ∧
        SendEvent.transferCompleted ∈ c.shared.events := by
  intro h
  have hRuns : ∃ c, exec (step 1000 "collection") State.idle
        (resumedRun 500 500 ++ [⟨600, .turn 2 .closed⟩]) = some c ∧
      (∃ first ∈ c.requests[1]?, ∃ resumed ∈ c.requests[2]?, first.isSizesProbe = false ∧
        resumed.isSizesProbe = false ∧ first.key ≠ resumed.key ∧ resumed.stage = .returned) ∧
      (∀ t (ht : t < c.requests.length), t ≠ 1 → t ≠ 2 → c.requests[t].isSizesProbe = true) ∧
      c.loop ≠ .returned ∧ SendEvent.transferCompleted ∉ c.shared.events := by
    decide
  obtain ⟨c, hRun, hRequests, hProbes, hRunning, hMissed⟩ := hRuns
  let twoHalves : Collection := ⟨96, 60, [500, 500], 1000, by decide, by decide⟩
  have hResumed : Resumed twoHalves 1 2 (resumedBody 500)
      (resumedRun 500 500 ++ [⟨600, .turn 2 .closed⟩]) c :=
    ⟨by decide, hRequests, hProbes, by decide, by decide, by decide,
      by decide, by decide, hRunning⟩
  exact hMissed (h twoHalves "collection" 1 2 _ _ c (by decide) hRun hResumed).2

end AltSendme.ProvideProgress
