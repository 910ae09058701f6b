import AltSendme.Protocol.TransferCompleted

/-! When the event transfer-completed is not missed. A delivered request checks
for the end of the transfer only when no other is counted as active, and a
request that leaves without a delivery checks nothing. -/
namespace AltSendme.ProvideProgress
open Execution

namespace Request

/-- The next turn takes the request out of the books without a delivery. -/
def leavesUndelivered (total : UInt64) (r : Request) : Bool :=
  match r.stage with
  | .removing bytesSent => !transferPayloadComplete bytesSent total
  | .aborting => true
  | _ => false

/-- The check the request waits for will pass, unless another request arrives. -/
def Passes (p : Shared) (clock : Nat) (r : Request) : Prop :=
  match r.stage with
  | .sleeping wakeAt activeBeforeWait _ =>
      p.activeRequests ≤ activeBeforeWait ∧ ∀ time ∈ p.lastRequestTime, time + 500 ≤ wakeAt
  | .checkingStates quiet _ | .checkingLast quiet _ =>
      quiet = true ∧ ∀ time ∈ p.lastRequestTime, time + 500 ≤ clock
  | _ => False

end Request

/-- Before the event is out, streams close only after their requests were taken
out, and a request is taken out undelivered only when none was delivered or
another one is still in the books. -/
def LeavesInTime (total : UInt64) (c : State) (l : Label) : Prop :=
  c.shared.hasEmittedCompleted = true ∨ ClosesAfterEnd c l ∧
    match l.action with
    | .turn t .go => ∀ r ∈ c.requests[t]?, r.leavesUndelivered total = true →
        (∀ q ∈ c.requests, q.isDelivered = false) ∨ 1 < c.requests.countP Request.held
    | _ => True

instance (total : UInt64) (c : State) (l : Label) : Decidable (LeavesInTime total c l) := by
  unfold LeavesInTime
  refine @instDecidableOr _ _ _ (@instDecidableAnd _ _ _ ?_)
  rcases l.action with _ | _ | ⟨t, input⟩ | _ <;> try exact .isTrue trivial
  rcases input <;> try exact .isTrue trivial
  exact @Option.decidableForallMem _ _ (fun _ => inferInstance) _

section
variable {p p' : Shared} {r r' : Request} {total : UInt64} {entryType : String} {now : Nat}
  {input : Input}

/-- No turn of a request touches the time of the last request. -/
theorem Request.turn_lastRequestTime (h : r.turn total entryType now p input = some (p', r')) :
    p'.lastRequestTime = p.lastRequestTime := by
  cases input with
  | update u =>
      simp only [turn] at h
      split at h <;> cases h
      rfl
  | closed =>
      simp only [turn] at h
      split at h <;> cases h
      rfl
  | go =>
      simp only [turn, complete, incomplete, Shared.emitStarted, Shared.emitCompleted] at h
      repeat' split at h
      all_goals cases h
      all_goals rfl

/-- The flag says that the event is out. -/
def Shared.Marked (p : Shared) : Prop :=
  p.hasEmittedCompleted = true → SendEvent.transferCompleted ∈ p.events

/-- What is out stays out, and the flag goes on telling the truth. -/
def Shared.Extends (p p' : Shared) : Prop :=
  (p.hasEmittedCompleted = true → p'.hasEmittedCompleted = true) ∧ (p.Marked → p'.Marked)

theorem Shared.extends_refl (p : Shared) : p.Extends p := ⟨id, id⟩

theorem Shared.extends_emit (event : SendEvent) : p.Extends (p.emit event) :=
  ⟨id, fun h hFlag => List.mem_append_left _ (h hFlag)⟩

theorem Shared.extends_emitStarted : p.Extends p.emitStarted := by
  rw [emitStarted]
  split
  · exact extends_refl p
  · exact ⟨id, fun h hFlag => List.mem_append_left _ (h hFlag)⟩

theorem Shared.extends_emitCompleted : p.Extends p.emitCompleted := by
  rw [emitCompleted]
  split
  · exact extends_refl p
  · exact ⟨fun _ => rfl, fun _ _ => List.mem_append_right _ (List.mem_singleton.mpr rfl)⟩

theorem Shared.emitCompleted_flag : p.emitCompleted.hasEmittedCompleted = true := by
  rw [emitCompleted]
  split
  · assumption
  · rfl

/-- The check at the end reports completion or does nothing. -/
theorem Shared.finish_cases (p : Shared) : p.finish = p.emitCompleted ∨ p.finish = p := by
  rw [finish]
  split
  · exact Or.inl rfl
  · exact Or.inr rfl

/-- What extends an extension extends the first. -/
theorem Shared.Extends.trans {q : Shared} (h : p.Extends p') (h' : p'.Extends q) : p.Extends q :=
  ⟨fun hFlag => h'.1 (h.1 hFlag), fun hMarked => h'.2 (h.2 hMarked)⟩

/-- A turn takes neither a report nor the flag for it back. -/
theorem Request.turn_extends (h : r.turn total entryType now p input = some (p', r')) :
    p.Extends p' := by
  cases input with
  | update u =>
      simp only [turn] at h
      split at h <;> cases h
      exact p.extends_refl
  | closed =>
      simp only [turn] at h
      split at h <;> cases h
      exact p.extends_refl
  | go =>
      cases hStage : r.stage with
      | receiving => simp [turn, hStage] at h
      | returned => simp [turn, hStage] at h
      | inserting u =>
          simp only [turn, hStage] at h
          cases h
          have hInserted : p.Extends
              (p.insertState r.key (.init now total u.isProgress)).emitActiveCount :=
            Shared.extends_emit _
          exact hInserted.trans Shared.extends_emitStarted
      | accounting index size =>
          simp only [turn, hStage] at h
          cases h
          exact p.extends_refl
      | measuring endOffset =>
          simp only [turn, hStage] at h
          split at h <;> cases h
          · exact Shared.extends_emit _
          · exact p.extends_refl
      | finishing =>
          simp only [turn, hStage] at h
          cases h
          exact p.extends_refl
      | removing bytesSent =>
          simp only [turn, hStage, complete, incomplete] at h
          repeat' split at h
          all_goals cases h
          all_goals exact Shared.extends_emit _
      | aborting =>
          simp only [turn, hStage] at h
          cases h
          have hRemoved : p.Extends (p.removeState r.key).emitActiveCount := Shared.extends_emit _
          split
          · exact hRemoved.trans (Shared.extends_emit _)
          · exact hRemoved
      | closing =>
          simp only [turn, hStage, complete, incomplete] at h
          repeat' split at h
          all_goals cases h
          all_goals exact p.extends_refl
      | sleeping wakeAt activeBeforeWait resume =>
          simp only [turn, hStage] at h
          split at h <;> cases h
          exact p.extends_refl
      | checkingStates quiet resume =>
          simp only [turn, hStage] at h
          cases h
          exact p.extends_refl
      | checkingLast quiet resume =>
          simp only [turn, hStage] at h
          cases h
          split
          · exact Shared.extends_emitCompleted
          · exact p.extends_refl

/-- A step takes neither a report nor the flag for it back. -/
theorem extends_step {c d : State} {l : Label} (hStep : step total entryType c l = some d) :
    c.shared.Extends d.shared := by
  rcases step_cases hStep with ⟨message, _, rfl⟩ |
    ⟨t, input, r, r', shared, _, _, hTurn, rfl⟩ | ⟨_, rfl⟩ | ⟨_, _, rfl⟩
  · cases message with
    | clientConnected endpointId =>
        cases endpointId with
        | none => exact c.shared.extends_refl
        | some id => exact Shared.extends_emit _
    | connectionClosed => exact c.shared.extends_refl
    | getRequestReceived key isSizesProbe => cases isSizesProbe <;> exact c.shared.extends_refl
    | other => exact c.shared.extends_refl
  · exact Request.turn_extends hTurn
  · exact c.shared.extends_refl
  · rcases c.shared.finish_cases with hFinish | hFinish <;> rw [hFinish]
    · exact Shared.extends_emitCompleted
    · exact c.shared.extends_refl

/-- The clock never goes back. -/
theorem step_clock {c d : State} {l : Label} (hStep : step total entryType c l = some d) :
    c.clock ≤ l.now := by
  rw [step] at hStep
  split at hStep
  · cases hStep
  · omega

/-- A request that leaves the books does so undelivered, or delivered with
another one still counted, or it waits for a check that will pass. -/
theorem Request.turn_leaves (hArrived : ∀ time ∈ p.lastRequestTime, time ≤ now)
    (hNotClosing : r.stage ≠ .closing) (hOpen : r.ended = none)
    (h : r.turn total entryType now p input = some (p', r')) (hEnded : r'.ended ≠ none) :
    input = .go ∧ r.leavesUndelivered total = true ∧ r'.isDelivered = false ∨
      p'.completedRequests < p'.activeRequests ∨ r'.Passes p' now := by
  cases input with
  | update u =>
      simp only [turn] at h
      split at h <;> cases h
      exact absurd hOpen hEnded
  | closed =>
      simp only [turn] at h
      split at h <;> cases h
      exact absurd hOpen hEnded
  | go =>
      cases hStage : r.stage with
      | closing => exact absurd hStage hNotClosing
      | removing bytesSent =>
          simp only [turn, hStage, complete, incomplete] at h
          split at h
          · split at h <;> cases h
            · refine Or.inr (Or.inr ⟨Nat.le_refl _, fun time hTime => ?_⟩)
              have hBefore := hArrived time hTime
              omega
            · next hCounted => exact Or.inr (Or.inl (Nat.lt_of_not_le hCounted))
          · next hPart =>
              cases h
              refine Or.inl ⟨rfl, ?_, rfl⟩
              rw [leavesUndelivered, hStage]
              simpa using hPart
      | aborting =>
          simp only [turn, hStage] at h
          cases h
          refine Or.inl ⟨rfl, ?_, rfl⟩
          rw [leavesUndelivered, hStage]
      | receiving => simp [turn, hStage] at h
      | returned => simp [turn, hStage] at h
      | measuring endOffset =>
          simp only [turn, hStage] at h
          split at h <;> cases h <;> exact absurd hOpen hEnded
      | sleeping wakeAt activeBeforeWait resume =>
          simp only [turn, hStage] at h
          split at h <;> cases h
          exact absurd hOpen hEnded
      | _ =>
          simp only [turn, hStage] at h
          cases h
          exact absurd hOpen hEnded

/-- A request that waits for a check that passes goes on to it, or emits the event. -/
theorem Request.turn_passes {clock : Nat} (hPasses : r.Passes p clock) (hClock : clock ≤ now)
    (hStates : p.transferStates = []) (hActive : p.activeRequests ≤ p.completedRequests)
    (hCompleted : 1 ≤ p.completedRequests)
    (h : r.turn total entryType now p input = some (p', r')) :
    p'.hasEmittedCompleted = true ∨ r'.Passes p' now := by
  have hGo : input = .go := by
    cases input with
    | go => rfl
    | update u =>
        simp only [turn] at h
        split at h
        · next hStage => simp [Passes, hStage] at hPasses
        · cases h
    | closed =>
        simp only [turn] at h
        split at h
        · next hStage => simp [Passes, hStage] at hPasses
        · cases h
  subst hGo
  cases hStage : r.stage with
  | sleeping wakeAt activeBeforeWait resume =>
      simp only [Passes, hStage] at hPasses
      simp only [turn, hStage] at h
      split at h <;> cases h
      refine Or.inr ⟨?_, fun time hTime => ?_⟩
      · simp only [Bool.and_eq_true, decide_eq_true_eq, Bool.not_eq_true', decide_eq_false_iff_not]
        exact ⟨⟨hActive, hCompleted⟩, Nat.not_lt.mpr hPasses.1⟩
      · have hWake := hPasses.2 time hTime
        omega
  | checkingStates quiet resume =>
      simp only [Passes, hStage] at hPasses
      simp only [turn, hStage] at h
      cases h
      refine Or.inr ⟨?_, fun time hTime => ?_⟩
      · rw [hPasses.1, hStates]
        rfl
      · have hLast := hPasses.2 time hTime
        omega
  | checkingLast quiet resume =>
      simp only [Passes, hStage] at hPasses
      simp only [turn, hStage] at h
      cases h
      left
      have hOld : (p.lastRequestTime.any fun time => decide (now - time < 500)) = false := by
        cases hTime : p.lastRequestTime with
        | none => rfl
        | some time =>
            have hLast := hPasses.2 time hTime
            simp only [Option.any_some, decide_eq_false_iff_not]
            omega
      rw [hPasses.1, hOld]
      exact Shared.emitCompleted_flag
  | _ => simp [Passes, hStage] at hPasses

/-- A turn leaves the request's end and the counters alone, or takes it out. -/
theorem Request.turn_end_cases (hConsistent : r.Consistent)
    (h : r.turn total entryType now p input = some (p', r')) :
    (r'.ended = r.ended ∧ p'.activeRequests = p.activeRequests ∧
        p'.completedRequests = p.completedRequests) ∨
      (r.ended = none ∧ r'.ended ≠ none ∧ p.completedRequests ≤ p'.completedRequests ∧
        (r'.isDelivered = true → 1 ≤ p'.completedRequests)) := by
  cases turn_books h with
  | kept hEnded hActive hCompleted _ => exact Or.inl ⟨hEnded, hActive, hCompleted⟩
  | inserted _ _ hEnded hActive hCompleted _ => exact Or.inl ⟨hEnded, hActive, hCompleted⟩
  | incomplete hStage hEnded _ hCompleted _ =>
      refine Or.inr ⟨(hConsistent.ending hStage).1, by rw [hEnded]; simp,
        Nat.le_of_eq hCompleted.symm, ?_⟩
      rw [isDelivered, hEnded]
      simp
  | completed how hStage hEnded _ _ _ hCompleted _ =>
      refine Or.inr ⟨(hConsistent.ending hStage).1, by rw [hEnded]; simp, ?_, fun _ => ?_⟩ <;> omega

/-- A request that passes the check still does later. -/
theorem Request.Passes.later {clock : Nat} (h : r.Passes p clock)
    (hActive : p'.activeRequests = p.activeRequests)
    (hLast : p'.lastRequestTime = p.lastRequestTime) (hClock : clock ≤ now) : r.Passes p' now := by
  unfold Passes at h ⊢
  rw [hActive, hLast]
  split at h
  · exact h
  · exact ⟨h.1, fun time hTime => Nat.le_trans (h.2 time hTime) hClock⟩
  · exact ⟨h.1, fun time hTime => Nat.le_trans (h.2 time hTime) hClock⟩
  · exact h

/-- Once some request is delivered, another one is still in the books or some
request waits for a check that will pass. -/
structure Prompt (c : State) : Prop where
  released : Released c
  arrived : ∀ time ∈ c.shared.lastRequestTime, time ≤ c.clock
  counted : (∃ r ∈ c.requests, r.isDelivered = true) → 1 ≤ c.shared.completedRequests
  pending : (∃ r ∈ c.requests, r.isDelivered = true) →
    0 < c.requests.countP Request.held ∨ ∃ r ∈ c.requests, r.Passes c.shared c.clock

/-- The turn of a request that stays where it is in the books. -/
theorem Prompt.turn_kept {c : State} {t : Nat} (h : Prompt c) (hClock : c.clock ≤ now)
    (hRequest : c.requests[t]? = some r)
    (hTurn : r.turn total entryType now c.shared input = some (p', r'))
    (hEnded : r'.ended = r.ended) (hActive : p'.activeRequests = c.shared.activeRequests)
    (hReleased : Released { c with shared := p', requests := c.requests.set t r', clock := now })
    (hCompleted : p'.completedRequests = c.shared.completedRequests) :
    p'.hasEmittedCompleted = true ∨
      Prompt { c with shared := p', requests := c.requests.set t r', clock := now } := by
  have hLast := Request.turn_lastRequestTime hTurn
  have hLength := (List.getElem?_eq_some_iff.mp hRequest).1
  have hBack : (∃ q ∈ c.requests.set t r', q.isDelivered = true) →
      ∃ q ∈ c.requests, q.isDelivered = true := by
    rintro ⟨q, hq, hDelivered⟩
    rcases List.mem_or_eq_of_mem_set hq with hq | rfl
    · exact ⟨q, hq, hDelivered⟩
    · refine ⟨r, List.mem_of_getElem? hRequest, ?_⟩
      rwa [Request.isDelivered, ← hEnded]
  have hHeld : (c.requests.set t r').countP Request.held = c.requests.countP Request.held := by
    obtain ⟨others, hBefore, hCount⟩ := countP_held_set hRequest
    have hSame : r'.held = r.held := by
      rw [Request.held, Request.held, (Request.turn_key hTurn).2, hEnded]
    rw [hCount, hSame, hBefore]
  by_cases hDelivered : ∃ q ∈ c.requests, q.isDelivered = true
  · by_cases hNone : c.requests.countP Request.held = 0
    · obtain ⟨hStates, hCounters⟩ := h.released.empty hNone
      obtain ⟨q, hq, hPasses⟩ := (h.pending hDelivered).resolve_left (by omega)
      have hMoved : p'.hasEmittedCompleted = true ∨
          ∃ q ∈ c.requests.set t r', q.Passes p' now := by
        obtain ⟨u, hu⟩ := List.mem_iff_getElem?.mp hq
        by_cases hut : u = t
        · subst hut
          obtain rfl : r = q := Option.some.inj (hRequest.symm.trans hu)
          refine (Request.turn_passes hPasses hClock hStates hCounters (h.counted hDelivered)
            hTurn).imp_right fun hNext => ⟨r', List.mem_set hLength r', hNext⟩
        · refine Or.inr ⟨q, ?_, hPasses.later hActive hLast hClock⟩
          exact List.mem_of_getElem? ((List.getElem?_set_ne (Ne.symm hut)).trans hu)
      refine hMoved.imp_right fun hPassing => ⟨hReleased, ?_, ?_, fun _ => Or.inr hPassing⟩
      · exact fun time hTime => Nat.le_trans (h.arrived time (hLast ▸ hTime)) hClock
      · exact fun hd => hCompleted ▸ h.counted (hBack hd)
    · refine Or.inr ⟨hReleased, ?_, ?_, fun _ => Or.inl ?_⟩
      · exact fun time hTime => Nat.le_trans (h.arrived time (hLast ▸ hTime)) hClock
      · exact fun hd => hCompleted ▸ h.counted (hBack hd)
      · exact hHeld ▸ Nat.pos_of_ne_zero hNone
  · refine Or.inr ⟨hReleased, ?_, ?_, ?_⟩
    · exact fun time hTime => Nat.le_trans (h.arrived time (hLast ▸ hTime)) hClock
    · exact fun hd => absurd (hBack hd) hDelivered
    · exact fun hd => absurd (hBack hd) hDelivered

/-- The turn that takes a request out of the books. -/
theorem Prompt.turn_left {c : State} {t : Nat} (h : Prompt c) (hClock : c.clock ≤ now)
    (hRequest : c.requests[t]? = some r)
    (hTurn : r.turn total entryType now c.shared input = some (p', r'))
    (hOpen : r.ended = none) (hEnded : r'.ended ≠ none)
    (hMore : c.shared.completedRequests ≤ p'.completedRequests)
    (hOne : r'.isDelivered = true → 1 ≤ p'.completedRequests)
    (hReleased : Released { c with shared := p', requests := c.requests.set t r', clock := now })
    (hInTime : input = .go → r.leavesUndelivered total = true →
      (∀ q ∈ c.requests, q.isDelivered = false) ∨ 1 < c.requests.countP Request.held) :
    Prompt { c with shared := p', requests := c.requests.set t r', clock := now } := by
  have hMem := List.mem_of_getElem? hRequest
  have hLast := Request.turn_lastRequestTime hTurn
  have hArrived : ∀ time ∈ c.shared.lastRequestTime, time ≤ now :=
    fun time hTime => Nat.le_trans (h.arrived time hTime) hClock
  have hCases (hd : ∃ q ∈ c.requests.set t r', q.isDelivered = true) :
      r'.isDelivered = true ∨ ∃ q ∈ c.requests, q.isDelivered = true := by
    obtain ⟨q, hq, hDelivered⟩ := hd
    rcases List.mem_or_eq_of_mem_set hq with hq | rfl
    · exact Or.inr ⟨q, hq, hDelivered⟩
    · exact Or.inl hDelivered
  refine ⟨hReleased, fun time hTime => hArrived time (hLast ▸ hTime), fun hd => ?_, fun hd => ?_⟩
  · rcases hCases hd with hOwn | hOther
    · exact hOne hOwn
    · exact Nat.le_trans (h.counted hOther) hMore
  · rcases Request.turn_leaves hArrived (h.released.notClosing r hMem) hOpen hTurn hEnded with
      ⟨hGo, hLeaves, hNot⟩ | hCounted | hPasses
    · left
      have hOther := (hCases hd).resolve_left (by rw [hNot]; nofun)
      obtain ⟨others, hBefore, hCount⟩ := countP_held_set hRequest
      rcases hInTime hGo hLeaves with hNobody | hTwo
      · obtain ⟨q, hq, hDelivered⟩ := hOther
        rw [hNobody q hq] at hDelivered
        cases hDelivered
      · rw [hBefore] at hTwo
        have hAtMost := Bool.toNat_le r.held
        simp only [hCount r']
        omega
    · left
      have hActive := hReleased.balanced.active
      simp only at hActive ⊢
      omega
    · exact Or.inr ⟨r', List.mem_set (List.getElem?_eq_some_iff.mp hRequest).1 r', hPasses⟩

/-- A step that takes no turn and enters no payload request. -/
theorem Prompt.quiet {c d : State} (h : Prompt c) (hReleased : Released d)
    (hClock : c.clock ≤ d.clock) {extra : List Request} (hRequests : d.requests = c.requests ++ extra)
    (hExtra : ∀ q ∈ extra, q.isDelivered = false)
    (hActive : d.shared.activeRequests = c.shared.activeRequests)
    (hCompleted : d.shared.completedRequests = c.shared.completedRequests)
    (hLast : d.shared.lastRequestTime = c.shared.lastRequestTime) : Prompt d := by
  have hBack : (∃ q ∈ d.requests, q.isDelivered = true) →
      ∃ q ∈ c.requests, q.isDelivered = true := by
    rintro ⟨q, hq, hDelivered⟩
    rw [hRequests] at hq
    rcases List.mem_append.mp hq with hq | hq
    · exact ⟨q, hq, hDelivered⟩
    · rw [hExtra q hq] at hDelivered
      cases hDelivered
  refine ⟨hReleased, fun time hTime => ?_, fun hd => hCompleted ▸ h.counted (hBack hd), fun hd => ?_⟩
  · exact Nat.le_trans (h.arrived time (hLast ▸ hTime)) hClock
  · rcases h.pending (hBack hd) with hHeld | ⟨q, hq, hPasses⟩
    · left
      rw [hRequests, List.countP_append]
      omega
    · refine Or.inr ⟨q, ?_, hPasses.later hActive hLast hClock⟩
      rw [hRequests]
      exact List.mem_append_left _ hq

/-- Only a message that brings a request moves the time of the last one. -/
theorem State.receive_lastRequestTime (c : State) (message : ProviderMessage)
    (h : (c.receive now message).requests = c.requests) :
    (c.receive now message).shared.lastRequestTime = c.shared.lastRequestTime := by
  cases message with
  | clientConnected endpointId => cases endpointId <;> rfl
  | connectionClosed => rfl
  | getRequestReceived key isSizesProbe => simp [receive] at h
  | other => rfl

/-- One step in time keeps the completion prompt. -/
theorem prompt_step {c d : State} {l : Label} (h : Prompt c) (hCloses : ClosesAfterEnd c l)
    (hInTime : ∀ t, l.action = .turn t .go → ∀ r ∈ c.requests[t]?,
      r.leavesUndelivered total = true →
        (∀ q ∈ c.requests, q.isDelivered = false) ∨ 1 < c.requests.countP Request.held)
    (hStep : step total entryType c l = some d) :
    d.shared.hasEmittedCompleted = true ∨ Prompt d := by
  have hReleased := released_step h.released hCloses hStep
  have hClock := step_clock hStep
  have hArrived : ∀ time ∈ c.shared.lastRequestTime, time ≤ l.now :=
    fun time hTime => Nat.le_trans (h.arrived time hTime) hClock
  rcases step_cases hStep with ⟨message, _, rfl⟩ |
    ⟨t, input, r, r', shared, hAction, hRequest, hTurn, rfl⟩ | ⟨_, rfl⟩ | ⟨_, _, rfl⟩
  · right
    rcases c.receive_cases l.now message with ⟨hRequests, _, hActive, hCompleted⟩ |
      ⟨key, isSizesProbe, hRequests, hShared⟩
    · exact h.quiet hReleased hClock (hRequests.trans (List.append_nil _).symm) nofun hActive
        hCompleted (c.receive_lastRequestTime message hRequests)
    · cases isSizesProbe with
      | true =>
          refine h.quiet hReleased hClock hRequests ?_ ?_ ?_ ?_
          · intro q hq
            rw [List.mem_singleton.mp hq]
            rfl
          · exact congrArg Shared.activeRequests hShared
          · exact congrArg Shared.completedRequests hShared
          · exact congrArg Shared.lastRequestTime hShared
      | false =>
          have hCompleted : (c.receive l.now message).shared.completedRequests =
              c.shared.completedRequests := by
            rw [hShared]
            rfl
          have hLast : (c.receive l.now message).shared.lastRequestTime = some l.now := by
            rw [hShared]
            rfl
          refine ⟨hReleased, fun time hTime => ?_, fun hd => ?_, fun _ => Or.inl ?_⟩
          · simp only [hLast, Option.mem_some_iff] at hTime
            exact Nat.le_of_eq hTime.symm
          · simp only [hRequests] at hd
            obtain ⟨q, hq, hDelivered⟩ := hd
            rcases List.mem_append.mp hq with hq | hq
            · simp only [hCompleted]
              exact h.counted ⟨q, hq, hDelivered⟩
            · rw [List.mem_singleton.mp hq] at hDelivered
              cases hDelivered
          · simp only [hRequests, List.countP_append, List.countP_singleton]
            have hNew : (Request.fresh key false).held = true := rfl
            rw [if_pos hNew]
            omega
  · have hOwn := h.released.balanced.consistent r (List.mem_of_getElem? hRequest)
    rcases Request.turn_end_cases hOwn hTurn with ⟨hEnded, hActive, hCompleted⟩ |
      ⟨hOpen, hEnded, hMore, hOne⟩
    · exact h.turn_kept hClock hRequest hTurn hEnded hActive hReleased hCompleted
    · refine Or.inr (h.turn_left hClock hRequest hTurn hOpen hEnded hMore hOne hReleased ?_)
      rintro rfl hLeaves
      exact hInTime t hAction r hRequest hLeaves
  · exact Or.inr (h.quiet hReleased hClock (List.append_nil _).symm nofun rfl rfl rfl)
  · rcases c.shared.finish_cases with hFinish | hFinish
    · left
      simp only [hFinish]
      exact Shared.emitCompleted_flag
    · simp only [hFinish] at hReleased ⊢
      exact Or.inr
        (h.quiet hReleased hClock (List.append_nil _).symm nofun rfl rfl rfl)

/-- Before any request nothing is to be reported. -/
theorem prompt_idle : Prompt State.idle := by
  refine ⟨released_idle, nofun, ?_, ?_⟩
  · rintro ⟨r, hr, _⟩
    cases hr
  · rintro ⟨r, hr, _⟩
    cases hr

/-- When every request has ended and one was delivered, the event is out,
whatever else was requested and whether or not the channel has closed. -/
theorem transfer_completed_not_missed {c : State} {ls : List Label}
    (hRun : exec (step total entryType) State.idle ls = some c)
    (hMeets : Meets (step total entryType) (LeavesInTime total) State.idle ls)
    (hOver : ∀ r ∈ c.requests, r.stage = .returned)
    (hDelivered : ∃ r ∈ c.requests, r.isDelivered = true) :
    SendEvent.transferCompleted ∈ c.shared.events := by
  have hMarked : c.shared.Marked :=
    @exec_invariant _ _ _ (fun c => c.shared.Marked) (fun _ _ _ h hStep => (extends_step hStep).2 h)
      _ _ _ hRun nofun
  have hPrompt : c.shared.hasEmittedCompleted = true ∨ Prompt c := by
    refine @Meets.invariant _ _ _ _ (fun c => c.shared.hasEmittedCompleted = true ∨ Prompt c) ?_
      _ _ _ hMeets hRun (Or.inr prompt_idle)
    rintro c l d (hOut | hPrompt) hCond hStep
    · exact Or.inl ((extends_step hStep).1 hOut)
    · rcases hCond with hOut | ⟨hCloses, hInTime⟩
      · exact Or.inl ((extends_step hStep).1 hOut)
      · refine prompt_step hPrompt hCloses (fun t hAction => ?_) hStep
        rw [hAction] at hInTime
        exact hInTime
  refine hMarked (hPrompt.resolve_right fun h => ?_)
  rcases h.pending hDelivered with hHeld | ⟨r, hMem, hPasses⟩
  · obtain ⟨r, hMem, hHeld⟩ := List.countP_pos_iff.mp hHeld
    rw [h.released.returned r hMem (hOver r hMem)] at hHeld
    cases hHeld
  · rw [Request.Passes, hOver r hMem] at hPasses
    exact hPasses

end

/-- A probe, then a part of the file, then the whole of it, each in a request. -/
def deliveredLast : List Label :=
  [⟨0, .message (.getRequestReceived (1, 0) true)⟩, ⟨0, .turn 0 .closed⟩,
    ⟨0, .message (.getRequestReceived (1, 1) false)⟩,
    ⟨0, .turn 1 (.update (.started 0 100))⟩, ⟨0, .turn 1 .go⟩, ⟨0, .turn 1 .go⟩,
    ⟨5, .message (.getRequestReceived (1, 2) false)⟩,
    ⟨5, .turn 2 (.update (.started 0 1000))⟩, ⟨5, .turn 2 .go⟩, ⟨5, .turn 2 .go⟩,
    ⟨9, .turn 1 (.update .completed)⟩, ⟨9, .turn 1 .go⟩, ⟨9, .turn 1 .go⟩, ⟨9, .turn 1 .closed⟩,
    ⟨9, .turn 2 (.update .completed)⟩, ⟨9, .turn 2 .go⟩, ⟨9, .turn 2 .go⟩,
    ⟨509, .turn 2 .go⟩, ⟨509, .turn 2 .go⟩, ⟨509, .turn 2 .go⟩, ⟨509, .turn 2 .closed⟩]

theorem transfer_completed_not_missed_deliveredLast : ∃ c,
    exec (step 1000 "file") State.idle deliveredLast = some c ∧
      SendEvent.transferCompleted ∈ c.shared.events := by
  have hRuns : (∃ c, exec (step 1000 "file") State.idle deliveredLast = some c ∧
      (∀ r ∈ c.requests, r.stage = .returned) ∧ ∃ r ∈ c.requests, r.isDelivered = true) ∧
      Meets (step 1000 "file") (LeavesInTime 1000) State.idle deliveredLast := by
    decide
  obtain ⟨⟨c, hRun, hOver, hDelivered⟩, hMeets⟩ := hRuns
  exact ⟨c, hRun, transfer_completed_not_missed hRun hMeets hOver hDelivered⟩

/-- The whole file is delivered while a part of it is still being sent in
another request; when that one has ended too, nobody checks any more. -/
theorem transfer_completed_missed :
    ¬∀ (total : UInt64) (entryType : String) (ls : List Label) (c : State),
      exec (step total entryType) State.idle ls = some c →
      (∀ r ∈ c.requests, r.stage = .returned) → (∃ r ∈ c.requests, r.isDelivered = true) →
      c.shared.activeRequests ≤ c.shared.completedRequests →
      (∀ time ∈ c.shared.lastRequestTime, time + 500 ≤ c.clock) →
      SendEvent.transferCompleted ∈ c.shared.events := by
  intro h
  have hRun : ∃ c, exec (step 1000 "file") State.idle
        [⟨0, .message (.getRequestReceived (1, 1) false)⟩,
          ⟨0, .turn 0 (.update (.started 0 100))⟩, ⟨0, .turn 0 .go⟩, ⟨0, .turn 0 .go⟩,
          ⟨5, .message (.getRequestReceived (1, 2) false)⟩,
          ⟨5, .turn 1 (.update (.started 0 1000))⟩, ⟨5, .turn 1 .go⟩, ⟨5, .turn 1 .go⟩,
          ⟨9, .turn 1 (.update .completed)⟩, ⟨9, .turn 1 .go⟩, ⟨9, .turn 1 .go⟩,
          ⟨9, .turn 1 .closed⟩,
          ⟨20, .turn 0 (.update .completed)⟩, ⟨20, .turn 0 .go⟩, ⟨20, .turn 0 .go⟩,
          ⟨600, .turn 0 .closed⟩] = some c ∧
      (∀ r ∈ c.requests, r.stage = .returned) ∧ (∃ r ∈ c.requests, r.isDelivered = true) ∧
      c.shared.activeRequests ≤ c.shared.completedRequests ∧
      (∀ time ∈ c.shared.lastRequestTime, time + 500 ≤ c.clock) ∧
      SendEvent.transferCompleted ∉ c.shared.events := by
    decide
  obtain ⟨c, hRun, hOver, hDelivered, hActive, hQuiet, hMissed⟩ := hRun
  exact hMissed (h 1000 "file" _ c hRun hOver hDelivered hActive hQuiet)

end AltSendme.ProvideProgress
