import AltSendme.Protocol.RequestBooks

/-! When the event transfer-completed says the truth. Delivered and aborted
requests share one counter, and only the place that emits the event could tell
them apart. -/
namespace AltSendme.ProvideProgress
open Execution

/-- At most one of the products of `transfer_payload_complete` is cut off. -/
def NotBothSaturate (bytesSent total : UInt64) : Prop :=
  bytesSent.toNat * 100 < 2 ^ 64 - 1 ∨ total.toNat * 95 < 2 ^ 64

instance (bytesSent total : UInt64) : Decidable (NotBothSaturate bytesSent total) :=
  inferInstanceAs (Decidable (_ ∨ _))

/-- At least 95 percent. -/
def NearlyAll (bytesSent total : UInt64) : Prop := total.toNat * 95 ≤ bytesSent.toNat * 100

namespace Request

/-- The bytes by which the next turn judges the request. -/
def judged (p : Shared) (r : Request) : Option UInt64 :=
  match r.stage with
  | .removing bytesSent => some bytesSent
  | .closing => some (p.accountedBytes r.key)
  | _ => none

def isDelivered (r : Request) : Bool :=
  match r.ended with
  | some (.complete _) => true
  | _ => false

end Request

/-- No judgement rests on two cut-off products, and the check after the last
request sees a delivered one next to any aborted one, unless a request is still
counted as active. -/
def EndsSoundly (total : UInt64) (c : State) (l : Label) : Prop :=
  match l.action with
  | .turn t .go => ∀ r ∈ c.requests[t]?, ∀ bytesSent ∈ r.judged c.shared,
      NotBothSaturate bytesSent total
  | .finish => (∃ r ∈ c.requests, r.ended = some .aborted) →
      (∃ r ∈ c.requests, r.isDelivered = true) ∨
        c.shared.completedRequests < c.shared.activeRequests
  | _ => True

instance (total : UInt64) (c : State) (l : Label) : Decidable (EndsSoundly total c l) := by
  unfold EndsSoundly
  rcases l.action with _ | _ | ⟨t, input⟩ | _
  · exact .isTrue trivial
  · exact .isTrue trivial
  · rcases input <;> try exact .isTrue trivial
    -- not by running through all values of a finite type
    exact @Option.decidableForallMem _ _ (fun _ => Option.decidableForallMem _) _
  · exact inferInstanceAs (Decidable (_ → _))

section
variable {p p' : Shared} {r r' : Request} {total : UInt64} {entryType : String} {now : Nat}
  {input : Input}

theorem saturatingMul_toNat (a b : UInt64) :
    (saturatingMul a b).toNat = min (a.toNat * b.toNat) (2 ^ 64 - 1) := by
  rw [saturatingMul, UInt64.toNat_ofNat']
  omega

theorem nearlyAll_of_complete {bytesSent : UInt64} (hExact : NotBothSaturate bytesSent total)
    (h : transferPayloadComplete bytesSent total = true) : NearlyAll bytesSent total := by
  rw [transferPayloadComplete] at h
  rw [NearlyAll]
  split at h
  · next hZero => simp [hZero]
  · have hLe : (saturatingMul total 95).toNat ≤ (saturatingMul bytesSent 100).toNat := by
      exact UInt64.le_iff_toNat_le.mp (by simpa using h)
    rw [saturatingMul_toNat, saturatingMul_toNat] at hLe
    change min (total.toNat * 95) _ ≤ min (bytesSent.toNat * 100) _ at hLe
    rcases hExact with hBytes | hTotal <;> omega

theorem Request.isDelivered_iff :
    r.isDelivered = true ↔ ∃ bytesSent, r.ended = some (.complete bytesSent) := by
  rw [isDelivered]
  constructor
  · intro h
    split at h
    · next bytesSent hEnded => exact ⟨bytesSent, hEnded⟩
    · cases h
  · rintro ⟨bytesSent, hEnded⟩
    rw [hEnded]

/-- How a request was taken out of the books is never changed. -/
theorem Request.turn_ended (hConsistent : r.Consistent) {how : RequestEnd}
    (h : r.turn total entryType now p input = some (p', r')) (hEnded : r.ended = some how) :
    r'.ended = some how := by
  have hNot (hEnding : r.stage.isEnding = true) : False := by
    rw [(hConsistent.ending hEnding).1] at hEnded
    cases hEnded
  cases turn_books h with
  | kept hSame _ _ _ => rw [hSame, hEnded]
  | inserted _ _ hSame _ _ _ => rw [hSame, hEnded]
  | incomplete hStage _ _ _ _ => exact (hNot hStage).elim
  | completed _ hStage _ _ _ _ _ _ => exact (hNot hStage).elim

/-- Another event at the end of the list is not this one. -/
theorem completed_of_mem_append {events : List SendEvent} {event : SendEvent}
    (h : SendEvent.transferCompleted ∈ events ++ [event])
    (hOther : event ≠ .transferCompleted) : SendEvent.transferCompleted ∈ events := by
  rcases List.mem_append.mp h with hOld | hNew
  · exact hOld
  · exact absurd (List.mem_singleton.mp hNew).symm hOther

theorem Shared.completed_of_mem_emitStarted
    (h : SendEvent.transferCompleted ∈ p.emitStarted.events) :
    SendEvent.transferCompleted ∈ p.events := by
  rw [emitStarted] at h
  split at h
  · exact h
  · exact completed_of_mem_append h (by simp)

/-- Among the requests only one that waited after its delivery emits the event. -/
theorem Request.turn_events (h : r.turn total entryType now p input = some (p', r'))
    (hEvent : SendEvent.transferCompleted ∈ p'.events) :
    SendEvent.transferCompleted ∈ p.events ∨ r.stage.awaited ≠ none := by
  cases input with
  | update u =>
      simp only [Request.turn] at h
      split at h <;> cases h
      exact Or.inl hEvent
  | closed =>
      simp only [Request.turn] at h
      split at h <;> cases h
      exact Or.inl hEvent
  | go =>
      cases hStage : r.stage with
      | receiving => simp [Request.turn, hStage] at h
      | returned => simp [Request.turn, hStage] at h
      | inserting u =>
          simp only [Request.turn, hStage] at h
          cases h
          have hBefore := Shared.completed_of_mem_emitStarted hEvent
          exact Or.inl (completed_of_mem_append hBefore (by simp))
      | accounting index size =>
          simp only [Request.turn, hStage] at h
          cases h
          exact Or.inl hEvent
      | measuring endOffset =>
          simp only [Request.turn, hStage] at h
          split at h <;> cases h
          · exact Or.inl (completed_of_mem_append hEvent (by simp))
          · exact Or.inl hEvent
      | finishing =>
          simp only [Request.turn, hStage] at h
          cases h
          exact Or.inl hEvent
      | removing bytesSent =>
          simp only [Request.turn, hStage, Request.complete, Request.incomplete] at h
          repeat' split at h
          all_goals cases h
          all_goals exact Or.inl (completed_of_mem_append hEvent (by simp))
      | aborting =>
          simp only [Request.turn, hStage] at h
          cases h
          split at hEvent
          · have hBefore := completed_of_mem_append hEvent (by simp)
            exact Or.inl (completed_of_mem_append hBefore (by simp))
          · exact Or.inl (completed_of_mem_append hEvent (by simp))
      | closing =>
          simp only [Request.turn, hStage, Request.complete, Request.incomplete] at h
          repeat' split at h
          all_goals cases h
          all_goals exact Or.inl hEvent
      | sleeping wakeAt activeBeforeWait resume => exact Or.inr (Option.some_ne_none _)
      | checkingStates quiet resume => exact Or.inr (Option.some_ne_none _)
      | checkingLast quiet resume => exact Or.inr (Option.some_ne_none _)

/-- What the counters and the event say about the requests. -/
structure Sound (total : UInt64) (c : State) : Prop where
  balanced : Balanced c
  full : ∀ r ∈ c.requests, ∀ bytesSent, r.ended = some (.complete bytesSent) →
    NearlyAll bytesSent total
  counted : 0 < c.shared.completedRequests →
    ∃ r ∈ c.requests, r.isDelivered = true ∨ r.ended = some .aborted
  emitted : SendEvent.transferCompleted ∈ c.shared.events →
    ∃ r ∈ c.requests, r.isDelivered = true

/-- A request that was taken out is still there, taken out the same way, after
another request's turn or its own. -/
theorem exists_ended_set {requests : List Request} {t : Nat} {q : Request} {how : RequestEnd}
    (hConsistent : r.Consistent) (hRequest : requests[t]? = some r)
    (h : r.turn total entryType now p input = some (p', r')) (hq : q ∈ requests)
    (hEnded : q.ended = some how) : ∃ q' ∈ requests.set t r', q'.ended = some how := by
  obtain ⟨u, hu⟩ := List.mem_iff_getElem?.mp hq
  by_cases hut : u = t
  · subst hut
    obtain rfl : r = q := Option.some.inj (hRequest.symm.trans hu)
    exact ⟨r', List.mem_set (List.getElem?_eq_some_iff.mp hRequest).1 r',
      Request.turn_ended hConsistent h hEnded⟩
  · exact ⟨q, List.mem_of_getElem? ((List.getElem?_set_ne (Ne.symm hut)).trans hu), hEnded⟩

/-- A turn counts a request only when it delivered it or saw it aborted. -/
theorem Request.turn_counted (h : r.turn total entryType now p input = some (p', r')) :
    p'.completedRequests = p.completedRequests ∨
      r'.isDelivered = true ∨ r'.ended = some .aborted := by
  cases turn_books h with
  | kept _ _ hCompleted _ => exact Or.inl hCompleted
  | inserted _ _ _ _ hCompleted _ => exact Or.inl hCompleted
  | incomplete _ _ _ hCompleted _ => exact Or.inl hCompleted
  | completed how _ hEnded hHow _ _ _ _ =>
      cases how with
      | complete bytesSent => exact Or.inr (Or.inl (isDelivered_iff.mpr ⟨bytesSent, hEnded⟩))
      | incomplete => exact absurd rfl hHow
      | aborted => exact Or.inr (Or.inr hEnded)

theorem Request.turn_full {c : State} {l : Label} {t : Nat} (hSound : EndsSoundly total c l)
    (hAction : l.action = .turn t input) (hRequest : c.requests[t]? = some r)
    (h : r.turn total entryType now c.shared input = some (p', r'))
    (hFull : ∀ bytesSent, r.ended = some (.complete bytesSent) → NearlyAll bytesSent total)
    {bytesSent : UInt64} (hEnded : r'.ended = some (.complete bytesSent)) :
    NearlyAll bytesSent total := by
  cases turn_books h with
  | kept hSame _ _ _ => exact hFull bytesSent (hSame ▸ hEnded)
  | inserted _ _ hSame _ _ _ => exact hFull bytesSent (hSame ▸ hEnded)
  | incomplete _ hNew _ _ _ => cases hNew.symm.trans hEnded
  | completed how _ hNew _ hComplete _ _ _ =>
      obtain rfl : how = .complete bytesSent := Option.some.inj (hNew.symm.trans hEnded)
      obtain ⟨hJudged, hStage⟩ := hComplete bytesSent rfl
      refine nearlyAll_of_complete ?_ hJudged
      have hGo : input = .go := by
        cases input with
        | go => rfl
        | update u => rcases hStage with hStage | ⟨hStage, _⟩ <;> simp [turn, hStage] at h
        | closed => rcases hStage with hStage | ⟨hStage, _⟩ <;> simp [turn, hStage] at h
      subst hGo
      simp only [EndsSoundly, hAction] at hSound
      apply hSound r hRequest
      rcases hStage with hStage | ⟨hStage, rfl⟩ <;> simp [judged, hStage]

/-- No message is answered with the event. -/
theorem State.receive_events (c : State) (now : Nat) (message : ProviderMessage)
    (hEvent : SendEvent.transferCompleted ∈ (c.receive now message).shared.events) :
    SendEvent.transferCompleted ∈ c.shared.events := by
  cases message with
  | clientConnected endpointId =>
      cases endpointId with
      | none => exact hEvent
      | some id => exact completed_of_mem_append hEvent nofun
  | connectionClosed => exact hEvent
  | getRequestReceived key isSizesProbe => cases isSizesProbe <;> exact hEvent
  | other => exact hEvent

theorem sound_step {c d : State} {l : Label} (h : Sound total c) (hEnds : EndsSoundly total c l)
    (hStep : step total entryType c l = some d) : Sound total d := by
  have hBalanced := balanced_step h.balanced hStep
  rcases step_cases hStep with ⟨message, _, rfl⟩ |
    ⟨t, input, r, r', shared, hAction, hRequest, hTurn, rfl⟩ | ⟨_, rfl⟩ | ⟨hAction, _, rfl⟩
  · have hEvents := c.receive_events l.now message
    rcases c.receive_cases l.now message with ⟨hRequests, _, _, hCompleted⟩ |
      ⟨key, isSizesProbe, hRequests, hShared⟩
    · refine ⟨hBalanced, ?_, ?_, fun hEvent => ?_⟩
      · simpa only [hRequests] using h.full
      · simpa only [hRequests, hCompleted] using h.counted
      · simpa only [hRequests] using h.emitted (hEvents hEvent)
    · have hKept (q : Request) (hq : q ∈ c.requests) :
          q ∈ (c.receive l.now message).requests := by
        rw [hRequests]
        exact List.mem_append_left _ hq
      refine ⟨hBalanced, ?_, fun hCompleted => ?_, fun hEvent => ?_⟩
      · intro q hq bytesSent hEnded
        simp only [hRequests, List.mem_append, List.mem_singleton] at hq
        rcases hq with hq | rfl
        · exact h.full q hq bytesSent hEnded
        · cases hEnded
      · have hSame : (c.receive l.now message).shared.completedRequests =
            c.shared.completedRequests := by
          rw [hShared]
          cases isSizesProbe <;> rfl
        obtain ⟨q, hq, hHow⟩ := h.counted (hSame ▸ hCompleted)
        exact ⟨q, hKept q hq, hHow⟩
      · obtain ⟨q, hq, hDelivered⟩ := h.emitted (hEvents hEvent)
        exact ⟨q, hKept q hq, hDelivered⟩
  · have hMem := List.mem_of_getElem? hRequest
    have hOwn := h.balanced.consistent r hMem
    have hThere : r' ∈ c.requests.set t r' :=
      List.mem_set (List.getElem?_eq_some_iff.mp hRequest).1 r'
    have hStays (q : Request) (hq : q ∈ c.requests) (hDelivered : q.isDelivered = true) :
        ∃ q' ∈ c.requests.set t r', q'.isDelivered = true := by
      obtain ⟨bytesSent, hEnded⟩ := Request.isDelivered_iff.mp hDelivered
      obtain ⟨q', hq', hSame⟩ := exists_ended_set hOwn hRequest hTurn hq hEnded
      exact ⟨q', hq', Request.isDelivered_iff.mpr ⟨bytesSent, hSame⟩⟩
    refine ⟨hBalanced, ?_, fun hCompleted => ?_, fun hEvent => ?_⟩
    · intro q hq bytesSent hEnded
      rcases List.mem_or_eq_of_mem_set hq with hq | rfl
      · exact h.full q hq bytesSent hEnded
      · exact Request.turn_full hEnds hAction hRequest hTurn (h.full r hMem) hEnded
    · rcases Request.turn_counted hTurn with hSame | hHow
      · obtain ⟨q, hq, hDelivered | hAborted⟩ := h.counted (hSame ▸ hCompleted)
        · obtain ⟨q', hq', hDelivered'⟩ := hStays q hq hDelivered
          exact ⟨q', hq', Or.inl hDelivered'⟩
        · obtain ⟨q', hq', hSame'⟩ := exists_ended_set hOwn hRequest hTurn hq hAborted
          exact ⟨q', hq', Or.inr hSame'⟩
      · exact ⟨r', hThere, hHow⟩
    · rcases Request.turn_events hTurn hEvent with hOld | hAwaited
      · obtain ⟨q, hq, hDelivered⟩ := h.emitted hOld
        exact hStays q hq hDelivered
      · obtain ⟨resume, hResume⟩ := Option.ne_none_iff_exists'.mp hAwaited
        exact hStays r hMem (Request.isDelivered_iff.mpr (hOwn.awaited resume hResume).1)
  · exact ⟨hBalanced, h.full, h.counted, h.emitted⟩
  · refine ⟨hBalanced, h.full, fun hCompleted => ?_, fun hEvent => ?_⟩
    · exact h.counted ((Shared.finish_books (p := c.shared)).2.2 ▸ hCompleted)
    · simp only [EndsSoundly, hAction] at hEnds
      simp only [Shared.finish] at hEvent
      split at hEvent
      · next hCounters =>
          simp only [ge_iff_le, gt_iff_lt, Bool.and_eq_true, decide_eq_true_eq] at hCounters
          obtain ⟨q, hq, hDelivered | hAborted⟩ := h.counted hCounters.2
          · exact ⟨q, hq, hDelivered⟩
          · rcases hEnds ⟨q, hq, hAborted⟩ with hDelivered | hActive
            · exact hDelivered
            · omega
      · exact h.emitted hEvent

theorem sound_idle : Sound total State.idle := ⟨balanced_idle, nofun, nofun, nofun⟩

/-- The event is emitted only when a payload request ended, not aborted, with at
least 95 percent of the collection accounted for it. -/
theorem transfer_completed_sound {c : State} {ls : List Label}
    (hRun : exec (step total entryType) State.idle ls = some c)
    (hMeets : Meets (step total entryType) (EndsSoundly total) State.idle ls) :
    (SendEvent.transferCompleted ∈ c.shared.events →
      ∃ r ∈ c.requests, r.isSizesProbe = false ∧
        ∃ bytesSent, r.ended = some (.complete bytesSent) ∧ NearlyAll bytesSent total) ∧
      ((∀ r ∈ c.requests, r.isSizesProbe = true ∨ r.ended = some .aborted) →
        SendEvent.transferCompleted ∉ c.shared.events) := by
  have hSound : Sound total c :=
    hMeets.invariant (fun _ _ _ h hEnds hStep => sound_step h hEnds hStep) hRun sound_idle
  have hFirst (hEvent : SendEvent.transferCompleted ∈ c.shared.events) :
      ∃ r ∈ c.requests, r.isSizesProbe = false ∧
        ∃ bytesSent, r.ended = some (.complete bytesSent) ∧ NearlyAll bytesSent total := by
    obtain ⟨r, hMem, hDelivered⟩ := hSound.emitted hEvent
    obtain ⟨bytesSent, hEnded⟩ := Request.isDelivered_iff.mp hDelivered
    refine ⟨r, hMem, ?_, bytesSent, hEnded, hSound.full r hMem bytesSent hEnded⟩
    by_contra hProbe
    rw [((hSound.balanced.consistent r hMem).probe (by simpa using hProbe)).1] at hEnded
    cases hEnded
  refine ⟨hFirst, fun hOnly hEvent => ?_⟩
  obtain ⟨r, hMem, hPayload, bytesSent, hEnded, _⟩ := hFirst hEvent
  rcases hOnly r hMem with hProbe | hAborted
  · rw [hPayload] at hProbe
    cases hProbe
  · cases hEnded.symm.trans hAborted

end

/-- A receiver whose only request is aborted, after which the share ends. -/
def abortedOnly : List Label :=
  [⟨0, .message (.getRequestReceived (1, 1) false)⟩, firstAt 0 (.update (.started 0 1000)),
    firstAt 0 .go, firstAt 0 .go, firstAt 0 (.update .aborted), firstAt 0 .go, firstAt 0 .closed,
    ⟨0, .channelClosed⟩, ⟨0, .finish⟩]

theorem transfer_completed_sound_delivered : ∃ c,
    exec (step 1000 "file") State.idle (delivered ++ [⟨600, .channelClosed⟩, ⟨600, .finish⟩]) =
      some c ∧
      ∃ r ∈ c.requests, r.isSizesProbe = false ∧
        ∃ bytesSent, r.ended = some (.complete bytesSent) ∧ NearlyAll bytesSent 1000 := by
  have hRuns : ∃ c, exec (step 1000 "file") State.idle
      (delivered ++ [⟨600, .channelClosed⟩, ⟨600, .finish⟩]) = some c ∧
        SendEvent.transferCompleted ∈ c.shared.events := by
    decide
  obtain ⟨c, hRun, hEvent⟩ := hRuns
  exact ⟨c, hRun, (transfer_completed_sound hRun (by decide)).1 hEvent⟩

/-- The share reports the transfer failed and, as it ends, completed. -/
theorem transfer_completed_after_abort : ∃ c,
    exec (step 1000 "file") State.idle abortedOnly = some c ∧
      c.shared.events = [.activeConnectionCount 1, .transferStarted, .activeConnectionCount 0,
        .transferFailed, .transferCompleted] ∧
      ∀ r ∈ c.requests, r.ended = some .aborted := by
  decide

end AltSendme.ProvideProgress
