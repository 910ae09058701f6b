import AltSendme.Protocol.ProvideProgress

/-! The counters and the map of the progress task. A request that is not a
probe is entered once, when it arrives, and must be taken out once, whichever
way its update stream ends. -/
namespace AltSendme.ProvideProgress
open Execution

/-- The requests that have a transfer state. -/
def Shared.keys (p : Shared) : List RequestKey := p.transferStates.map (·.1)

namespace RequestStage

/-- On the way out of the books, with a state and not yet ended. -/
def isEnding : RequestStage → Bool
  | .finishing | .removing _ | .aborting | .closing => true
  | _ => false

/-- The wait of a request that delivered its payload, and where it leads. -/
def awaited : RequestStage → Option RequestStage
  | .sleeping _ _ resume | .checkingStates _ resume | .checkingLast _ resume => some resume
  | _ => none

end RequestStage

namespace Request

/-- The request counts as active and not as completed. -/
def held (r : Request) : Bool := !r.isSizesProbe && r.ended.isNone

/-- What a request knows of itself between two turns. -/
structure Consistent (r : Request) : Prop where
  probe : r.isSizesProbe = true → r.ended = none ∧ (r.stage = .receiving ∨ r.stage = .returned)
  started : r.ended ≠ none → r.transferStarted = true
  inserting : ∀ u, r.stage = .inserting u → r.ended = none
  ending : r.stage.isEnding = true → r.ended = none ∧ r.transferStarted = true
  awaited : ∀ resume, r.stage.awaited = some resume →
    (∃ bytesSent, r.ended = some (.complete bytesSent)) ∧ (resume = .receiving ∨ resume = .returned)

/-- What a turn does to the books: nothing, a new state, or the request's end. -/
inductive Books (total : UInt64) (p : Shared) (r : Request) : Shared → Request → Prop where
  | kept (p' : Shared) (r' : Request) (hEnded : r'.ended = r.ended)
      (hActive : p'.activeRequests = p.activeRequests)
      (hCompleted : p'.completedRequests = p.completedRequests) (hKeys : p'.keys = p.keys) :
      Books total p r p' r'
  | inserted (p' : Shared) (r' : Request) (u : RequestUpdate) (hStage : r.stage = .inserting u)
      (hEnded : r'.ended = r.ended)
      (hActive : p'.activeRequests = p.activeRequests)
      (hCompleted : p'.completedRequests = p.completedRequests)
      (hKeys : p'.keys = r.key :: p.keys.filter (· != r.key)) :
      Books total p r p' r'
  | incomplete (p' : Shared) (r' : Request) (hStage : r.stage.isEnding = true)
      (hEnded : r'.ended = some .incomplete)
      (hActive : p'.activeRequests = p.activeRequests - 1)
      (hCompleted : p'.completedRequests = p.completedRequests)
      (hKeys : r.stage = .closing ∨ p'.keys = p.keys.filter (· != r.key)) :
      Books total p r p' r'
  | completed (p' : Shared) (r' : Request) (how : RequestEnd) (hStage : r.stage.isEnding = true)
      (hEnded : r'.ended = some how) (hHow : how ≠ .incomplete)
      (hComplete : ∀ bytesSent, how = .complete bytesSent →
        transferPayloadComplete bytesSent total = true ∧
          (r.stage = .removing bytesSent ∨
            r.stage = .closing ∧ bytesSent = p.accountedBytes r.key))
      (hActive : p'.activeRequests = p.activeRequests)
      (hCompleted : p'.completedRequests = p.completedRequests + 1)
      (hKeys : r.stage = .closing ∨ p'.keys = p.keys.filter (· != r.key)) :
      Books total p r p' r'

end Request

section
variable {p p' : Shared} {r r' : Request} {total : UInt64} {entryType : String} {now : Nat}
  {input : Input}

@[simp] theorem Shared.emit_keys (event : SendEvent) : (p.emit event).keys = p.keys := rfl

@[simp] theorem Shared.emit_activeRequests (event : SendEvent) :
    (p.emit event).activeRequests = p.activeRequests := rfl

@[simp] theorem Shared.emit_completedRequests (event : SendEvent) :
    (p.emit event).completedRequests = p.completedRequests := rfl

@[simp] theorem Shared.emitStarted_books :
    p.emitStarted.keys = p.keys ∧ p.emitStarted.activeRequests = p.activeRequests ∧
      p.emitStarted.completedRequests = p.completedRequests := by
  rw [emitStarted]
  split <;> exact ⟨rfl, rfl, rfl⟩

@[simp] theorem Shared.emitCompleted_books :
    p.emitCompleted.keys = p.keys ∧ p.emitCompleted.activeRequests = p.activeRequests ∧
      p.emitCompleted.completedRequests = p.completedRequests := by
  rw [emitCompleted]
  split <;> exact ⟨rfl, rfl, rfl⟩

/-- An insertion leaves the key once, in front. -/
theorem Shared.insertState_keys (key : RequestKey) (s : TransferState) :
    (p.insertState key s).keys = key :: p.keys.filter (· != key) := by
  simp [keys, insertState, List.filter_map, Function.comp_def]

/-- A change leaves the keys as they are. -/
theorem Shared.modifyState_keys (key : RequestKey) (change : TransferState → TransferState) :
    (p.modifyState key change).keys = p.keys := by
  rw [keys, modifyState, List.map_map]
  apply List.map_congr_left
  intro entry _
  simp only [Function.comp]
  split <;> rfl

/-- A removal strikes its key only. -/
theorem Shared.removeState_keys (key : RequestKey) :
    (p.removeState key).keys = p.keys.filter (· != key) := by
  simp [keys, removeState, List.filter_map, Function.comp_def]

/-- A request keeps its name. -/
theorem Request.turn_key (h : r.turn total entryType now p input = some (p', r')) :
    r'.key = r.key ∧ r'.isSizesProbe = r.isSizesProbe := by
  cases input with
  | update u =>
      simp only [turn] at h
      split at h <;> cases h
      exact ⟨rfl, rfl⟩
  | closed =>
      simp only [turn] at h
      split at h <;> cases h
      exact ⟨rfl, rfl⟩
  | go =>
      simp only [turn, complete, incomplete] at h
      repeat' split at h
      all_goals cases h
      all_goals exact ⟨rfl, rfl⟩

/-- The end of a request that delivered its payload. -/
theorem Request.complete_books {bytesSent : UInt64} {resume : RequestStage} {q : Shared}
    (hActive : q.activeRequests = p.activeRequests)
    (hCompleted : q.completedRequests = p.completedRequests)
    (hKeys : r.stage = .closing ∨ q.keys = p.keys.filter (· != r.key))
    (hFull : transferPayloadComplete bytesSent total = true)
    (hStage : r.stage = .removing bytesSent ∨
      r.stage = .closing ∧ bytesSent = p.accountedBytes r.key)
    (hEq : r.complete now q bytesSent resume = (p', r')) : r.Books total p p' r' := by
  have hEnding : r.stage.isEnding = true := by
    rcases hStage with h | ⟨h, _⟩ <;> rw [h] <;> rfl
  have hHow (b : UInt64) (hb : RequestEnd.complete bytesSent = .complete b) :
      transferPayloadComplete b total = true ∧
        (r.stage = .removing b ∨ r.stage = .closing ∧ b = p.accountedBytes r.key) := by
    cases hb
    exact ⟨hFull, hStage⟩
  have hMore : q.completedRequests + 1 = p.completedRequests + 1 := by rw [hCompleted]
  simp only [complete] at hEq
  split at hEq <;> cases hEq <;>
    exact .completed _ _ _ hEnding rfl RequestEnd.noConfusion hHow hActive hMore hKeys

/-- One turn of a request changes the books as its stage says. -/
theorem Request.turn_books (h : r.turn total entryType now p input = some (p', r')) :
    r.Books total p p' r' := by
  cases input with
  | update u =>
      simp only [turn] at h
      split at h <;> cases h
      exact .kept _ _ rfl rfl rfl rfl
  | closed =>
      simp only [turn] at h
      split at h <;> cases h
      exact .kept _ _ rfl rfl rfl rfl
  | go =>
      cases hStage : r.stage with
      | receiving => simp [turn, hStage] at h
      | returned => simp [turn, hStage] at h
      | inserting u =>
          simp only [turn, hStage] at h
          cases h
          obtain ⟨hKeys, hActive, hCompleted⟩ := Shared.emitStarted_books
            (p := (p.insertState r.key (.init now total u.isProgress)).emitActiveCount)
          refine .inserted _ _ u hStage rfl hActive hCompleted (hKeys.trans ?_)
          exact Shared.insertState_keys _ _
      | accounting index size =>
          simp only [turn, hStage] at h
          cases h
          exact .kept _ _ rfl rfl rfl (Shared.modifyState_keys _ _)
      | measuring endOffset =>
          simp only [turn, hStage] at h
          split at h
          · cases h
            exact .kept _ _ rfl rfl rfl (Shared.modifyState_keys _ _)
          · cases h
            exact .kept _ _ rfl rfl rfl (Shared.modifyState_keys _ _)
      | finishing =>
          simp only [turn, hStage] at h
          cases h
          exact .kept _ _ rfl rfl rfl (Shared.modifyState_keys _ _)
      | removing bytesSent =>
          simp only [turn, hStage] at h
          have hKeys := Shared.removeState_keys (p := p) r.key
          split at h
          · next hFull =>
              exact complete_books (q := (p.removeState r.key).emitActiveCount) rfl rfl
                (Or.inr hKeys) hFull (Or.inl hStage) (Option.some.inj h)
          · cases h
            exact .incomplete _ _ (by rw [hStage]; rfl) rfl rfl rfl (Or.inr hKeys)
      | aborting =>
          simp only [turn, hStage] at h
          cases h
          have hKeys := Shared.removeState_keys (p := p) r.key
          split
          · exact .completed _ _ .aborted (by rw [hStage]; rfl) rfl RequestEnd.noConfusion nofun
              rfl rfl (Or.inr hKeys)
          · exact .completed _ _ .aborted (by rw [hStage]; rfl) rfl RequestEnd.noConfusion nofun
              rfl rfl (Or.inr hKeys)
      | closing =>
          simp only [turn, hStage] at h
          split at h
          · next hFull =>
              exact complete_books rfl rfl (Or.inl hStage) hFull (Or.inr ⟨hStage, rfl⟩)
                (Option.some.inj h)
          · cases h
            exact .incomplete _ _ (by rw [hStage]; rfl) rfl rfl rfl (Or.inl hStage)
      | sleeping wakeAt activeBeforeWait resume =>
          simp only [turn, hStage] at h
          split at h <;> cases h
          exact .kept _ _ rfl rfl rfl rfl
      | checkingStates quiet resume =>
          simp only [turn, hStage] at h
          cases h
          exact .kept _ _ rfl rfl rfl rfl
      | checkingLast quiet resume =>
          simp only [turn, hStage] at h
          cases h
          obtain ⟨hKeys, hActive, hCompleted⟩ := Shared.emitCompleted_books (p := p)
          split
          · exact .kept _ _ rfl hActive hCompleted hKeys
          · exact .kept _ _ rfl rfl rfl rfl

/-- Only a request that has not started yet goes on to insert itself. -/
theorem Request.afterUpdate_inserting {u v : RequestUpdate} (h : r.afterUpdate u = .inserting v) :
    r.transferStarted = false := by
  cases hStarted : r.transferStarted with
  | false => rfl
  | true =>
      cases u <;> simp only [afterUpdate, hStarted, if_true] at h
      case started => cases h
      case progress => cases h
      case completed => split at h <;> cases h
      case aborted => split at h <;> cases h

/-- Only a started request that has not ended goes on to end itself. -/
theorem Request.afterUpdate_isEnding {u : RequestUpdate} (h : (r.afterUpdate u).isEnding = true) :
    r.ended = none ∧ r.transferStarted = true := by
  cases u <;> simp only [afterUpdate] at h <;> split at h
  case completed.isTrue hOpen | aborted.isTrue hOpen => simpa [and_comm] using hOpen
  all_goals cases h

/-- After an update nothing is awaited. -/
theorem Request.afterUpdate_awaited (u : RequestUpdate) : (r.afterUpdate u).awaited = none := by
  cases u <;> simp only [afterUpdate] <;> split <;> rfl

/-- After the insertion a request neither ends nor awaits anything. -/
theorem Request.afterInsert_quiet (u : RequestUpdate) :
    (afterInsert u).isEnding = false ∧ (afterInsert u).awaited = none ∧
      ∀ v, afterInsert u ≠ .inserting v := by
  cases u <;> exact ⟨rfl, rfl, nofun⟩

/-- A payload request whose next stage asks for nothing. -/
theorem Request.Consistent.resting (h : r.Consistent) {stage : RequestStage}
    (hPayload : r.isSizesProbe = false) (hEnding : stage.isEnding = false)
    (hAwaited : stage.awaited = none) (hInserting : ∀ u, stage ≠ .inserting u) :
    Consistent { r with stage := stage } where
  probe hProbe := absurd hProbe (by simp [hPayload])
  started := h.started
  inserting u hStage := absurd hStage (hInserting u)
  ending hStage := absurd hStage (by simp [hEnding])
  awaited resume hResume := absurd hResume (by simp [hAwaited])

/-- A payload request that is taken out of the books. -/
theorem Request.Consistent.end (h : r.Consistent) (hPayload : r.isSizesProbe = false)
    (hEnding : r.stage.isEnding = true) (how : RequestEnd) {stage : RequestStage}
    (hStage : stage = .receiving ∨ stage = .returned) :
    Consistent { r with ended := some how, stage := stage } where
  probe hProbe := absurd hProbe (by simp [hPayload])
  started _ := (h.ending hEnding).2
  inserting u hInserting := by
    rcases hStage with rfl | rfl <;> cases hInserting
  ending hEnding := by
    rcases hStage with rfl | rfl <;> cases hEnding
  awaited resume hResume := by
    rcases hStage with rfl | rfl <;> cases hResume

/-- A payload request that waits after its payload was delivered. -/
theorem Request.Consistent.await (hPayload : r.isSizesProbe = false)
    (hStarted : r.transferStarted = true) {bytesSent : UInt64} {stage resume : RequestStage}
    (hAwaited : stage.awaited = some resume) (hEnding : stage.isEnding = false)
    (hResume : resume = .receiving ∨ resume = .returned) :
    Consistent { r with ended := some (.complete bytesSent), stage := stage } where
  probe hProbe := absurd hProbe (by simp [hPayload])
  started _ := hStarted
  inserting u hInserting := by
    obtain rfl : stage = .inserting u := hInserting
    cases hAwaited
  ending h := absurd h (by simp [hEnding])
  awaited next hNext := by
    obtain rfl : resume = next := Option.some.inj (hAwaited.symm.trans hNext)
    exact ⟨⟨bytesSent, rfl⟩, hResume⟩

/-- A request that ends keeps its own books. -/
theorem Request.Consistent.complete (h : r.Consistent) (hPayload : r.isSizesProbe = false)
    (hEnding : r.stage.isEnding = true) {bytesSent : UInt64} {resume : RequestStage}
    (hResume : resume = .receiving ∨ resume = .returned)
    (hEq : r.complete now p bytesSent resume = (p', r')) : r'.Consistent := by
  simp only [Request.complete] at hEq
  split at hEq <;> cases hEq
  · exact .await hPayload (h.ending hEnding).2 rfl rfl hResume
  · exact h.end hPayload hEnding _ hResume

/-- A turn keeps a request consistent. -/
theorem Request.Consistent.turn (hConsistent : r.Consistent)
    (h : r.turn total entryType now p input = some (p', r')) : r'.Consistent := by
  cases input with
  | update u =>
      simp only [Request.turn] at h
      split at h <;> cases h
      next hReceiving =>
        refine ⟨fun hProbe => ?_, hConsistent.started, fun v hStage => ?_, fun hEnding => ?_,
          fun resume hResume => ?_⟩
        · exact ⟨(hConsistent.probe hProbe).1, Or.inl (if_pos hProbe)⟩
        · dsimp only at hStage
          split at hStage
          · cases hStage
          · by_contra hEnded
            have hStarted := hConsistent.started hEnded
            rw [afterUpdate_inserting hStage] at hStarted
            cases hStarted
        · dsimp only at hEnding
          split at hEnding
          · cases hEnding
          · exact afterUpdate_isEnding hEnding
        · dsimp only at hResume
          split at hResume
          · cases hResume
          · rw [afterUpdate_awaited] at hResume
            cases hResume
  | closed =>
      simp only [Request.turn] at h
      split at h <;> cases h
      next hReceiving =>
        cases hOpen : !r.isSizesProbe && r.transferStarted && r.ended.isNone with
        | true =>
            refine ⟨fun hProbe => ?_, hConsistent.started, nofun, fun _ => ?_, nofun⟩
            · dsimp only at hProbe
              simp [hProbe] at hOpen
            · simp only [Bool.and_eq_true] at hOpen
              exact ⟨by simpa using hOpen.2, hOpen.1.2⟩
        | false =>
            exact ⟨fun hProbe => ⟨(hConsistent.probe hProbe).1, Or.inr rfl⟩, hConsistent.started,
              nofun, nofun, nofun⟩
  | go =>
      have hPayload : r.isSizesProbe = false := by
        by_contra hProbe
        rcases (hConsistent.probe (by simpa using hProbe)).2 with hStage | hStage <;>
          simp [Request.turn, hStage] at h
      cases hStage : r.stage with
      | receiving => simp [Request.turn, hStage] at h
      | returned => simp [Request.turn, hStage] at h
      | inserting u =>
          simp only [Request.turn, hStage] at h
          cases h
          obtain ⟨hEnding, hAwaited, hInserting⟩ := afterInsert_quiet u
          have hStarted : Consistent { r with transferStarted := true } :=
            ⟨hConsistent.probe, fun _ => rfl, hConsistent.inserting,
              fun h => ⟨(hConsistent.ending h).1, rfl⟩, hConsistent.awaited⟩
          exact hStarted.resting hPayload hEnding hAwaited hInserting
      | accounting index size =>
          simp only [Request.turn, hStage] at h
          cases h
          exact hConsistent.resting hPayload rfl rfl nofun
      | measuring endOffset =>
          simp only [Request.turn, hStage] at h
          split at h <;> cases h <;> exact hConsistent.resting hPayload rfl rfl nofun
      | finishing =>
          simp only [Request.turn, hStage] at h
          cases h
          have hEnding := hConsistent.ending (by rw [hStage]; rfl)
          exact ⟨fun hProbe => absurd hProbe (by simp [hPayload]), hConsistent.started, nofun,
            fun _ => hEnding, nofun⟩
      | removing bytesSent =>
          simp only [Request.turn, hStage] at h
          have hEnding : r.stage.isEnding = true := by rw [hStage]; rfl
          split at h
          · exact hConsistent.complete hPayload hEnding (Or.inl rfl) (Option.some.inj h)
          · cases h
            exact hConsistent.end hPayload hEnding _ (Or.inl rfl)
      | aborting =>
          simp only [Request.turn, hStage] at h
          cases h
          exact hConsistent.end hPayload (by rw [hStage]; rfl) _ (Or.inl rfl)
      | closing =>
          simp only [Request.turn, hStage] at h
          have hEnding : r.stage.isEnding = true := by rw [hStage]; rfl
          split at h
          · exact hConsistent.complete hPayload hEnding (Or.inr rfl) (Option.some.inj h)
          · cases h
            exact hConsistent.end hPayload hEnding _ (Or.inr rfl)
      | sleeping wakeAt activeBeforeWait resume =>
          simp only [Request.turn, hStage] at h
          split at h <;> cases h
          obtain ⟨⟨bytesSent, hEnded⟩, hResume⟩ := hConsistent.awaited resume (by rw [hStage]; rfl)
          have hStarted := hConsistent.started (by rw [hEnded]; nofun)
          rw [hEnded]
          exact .await hPayload hStarted rfl rfl hResume
      | checkingStates quiet resume =>
          simp only [Request.turn, hStage] at h
          cases h
          obtain ⟨⟨bytesSent, hEnded⟩, hResume⟩ := hConsistent.awaited resume (by rw [hStage]; rfl)
          have hStarted := hConsistent.started (by rw [hEnded]; nofun)
          rw [hEnded]
          exact .await hPayload hStarted rfl rfl hResume
      | checkingLast quiet resume =>
          simp only [Request.turn, hStage] at h
          cases h
          obtain ⟨_, hResume⟩ := hConsistent.awaited resume (by rw [hStage]; rfl)
          rcases hResume with rfl | rfl <;> exact hConsistent.resting hPayload rfl rfl nofun

/-- What one label of the run does. -/
theorem step_cases {c d : State} {l : Label} (h : step total entryType c l = some d) :
    (∃ message, l.action = .message message ∧
        d = { c.receive l.now message with clock := l.now }) ∨
      (∃ t input r r' shared, l.action = .turn t input ∧ c.requests[t]? = some r ∧
        r.turn total entryType l.now c.shared input = some (shared, r') ∧
        d = { c with shared := shared, requests := c.requests.set t r', clock := l.now }) ∨
      (l.action = .channelClosed ∧ d = { c with loop := .draining, clock := l.now }) ∨
      (l.action = .finish ∧ (∀ r ∈ c.requests, r.stage = .returned) ∧
        d = { c with shared := c.shared.finish, loop := .returned, clock := l.now }) := by
  obtain ⟨now, action⟩ := l
  rw [step] at h
  split at h
  · cases h
  obtain ⟨e, hAct, rfl⟩ := Option.map_eq_some_iff.mp h
  cases action with
  | message message =>
      simp only [State.act] at hAct
      split at hAct <;> cases hAct
      exact Or.inl ⟨message, rfl, rfl⟩
  | channelClosed =>
      simp only [State.act] at hAct
      split at hAct <;> cases hAct
      exact Or.inr (Or.inr (Or.inl ⟨rfl, rfl⟩))
  | turn t input =>
      simp only [State.act] at hAct
      obtain ⟨r, hRequest, hTurn⟩ := Option.bind_eq_some_iff.mp hAct
      obtain ⟨⟨shared, r'⟩, hMoved, hEq⟩ := Option.bind_eq_some_iff.mp hTurn
      cases hEq
      exact Or.inr (Or.inl ⟨t, input, r, r', shared, rfl, hRequest, hMoved, rfl⟩)
  | finish =>
      simp only [State.act] at hAct
      split at hAct
      · next hOver =>
          cases hAct
          exact Or.inr (Or.inr (Or.inr ⟨rfl, hOver.2, rfl⟩))
      · cases hAct

/-- A new request, as the loop pushes it. -/
def Request.fresh (key : RequestKey) (isSizesProbe : Bool) : Request :=
  { key, isSizesProbe, transferStarted := false, ended := none, stage := .receiving }

/-- A fresh request has nothing to account for. -/
theorem Request.fresh_consistent (key : RequestKey) (isSizesProbe : Bool) :
    (fresh key isSizesProbe).Consistent :=
  ⟨fun _ => ⟨rfl, Or.inl rfl⟩, fun h => absurd rfl h, nofun, nofun, nofun⟩

/-- A message leaves the books alone or enters one request. -/
theorem State.receive_cases (c : State) (now : Nat) (message : ProviderMessage) :
    ((c.receive now message).requests = c.requests ∧
        (c.receive now message).shared.keys = c.shared.keys ∧
        (c.receive now message).shared.activeRequests = c.shared.activeRequests ∧
        (c.receive now message).shared.completedRequests = c.shared.completedRequests) ∨
      ∃ key isSizesProbe,
        (c.receive now message).requests = c.requests ++ [.fresh key isSizesProbe] ∧
        (c.receive now message).shared = c.shared.requested now isSizesProbe := by
  cases message with
  | clientConnected endpointId => cases endpointId <;> exact Or.inl ⟨rfl, rfl, rfl, rfl⟩
  | connectionClosed => exact Or.inl ⟨rfl, rfl, rfl, rfl⟩
  | getRequestReceived key isSizesProbe => exact Or.inr ⟨key, isSizesProbe, rfl, rfl⟩
  | other => exact Or.inl ⟨rfl, rfl, rfl, rfl⟩

/-- The check at the end writes nothing into the books. -/
theorem Shared.finish_books :
    p.finish.keys = p.keys ∧ p.finish.activeRequests = p.activeRequests ∧
      p.finish.completedRequests = p.completedRequests := by
  rw [finish]
  split
  · exact emitCompleted_books
  · exact ⟨rfl, rfl, rfl⟩

/-- The books balance: the active requests are the completed ones and those not
yet taken out. -/
structure Balanced (c : State) : Prop where
  consistent : ∀ r ∈ c.requests, r.Consistent
  active : c.shared.activeRequests = c.shared.completedRequests + c.requests.countP Request.held

/-- A request about to end still holds its entry. -/
theorem Request.held_of_isEnding (h : r.Consistent) (hPayload : r.isSizesProbe = false)
    (hEnding : r.stage.isEnding = true) : r.held = true := by
  simp [held, hPayload, (h.ending hEnding).1]

/-- A request that is being taken out is no probe. -/
theorem Request.Consistent.payload (h : r.Consistent)
    (hBusy : r.stage ≠ .receiving ∧ r.stage ≠ .returned) : r.isSizesProbe = false := by
  by_contra hProbe
  rcases (h.probe (by simpa using hProbe)).2 with hStage | hStage
  · exact hBusy.1 hStage
  · exact hBusy.2 hStage

theorem RequestStage.isEnding_busy {stage : RequestStage} (h : stage.isEnding = true) :
    stage ≠ .receiving ∧ stage ≠ .returned := by
  constructor <;> rintro rfl <;> cases h

/-- One request's turn moves its count with the counters. -/
theorem Request.turn_held (hConsistent : r.Consistent)
    (h : r.turn total entryType now p input = some (p', r')) {others : Nat}
    (hActive : p.activeRequests = p.completedRequests + (others + r.held.toNat)) :
    p'.activeRequests = p'.completedRequests + (others + r'.held.toNat) := by
  have hProbe := (turn_key h).2
  have hCounted (hEnding : r.stage.isEnding = true) : r.held = true :=
    held_of_isEnding hConsistent (hConsistent.payload (RequestStage.isEnding_busy hEnding)) hEnding
  cases turn_books h with
  | kept hEnded hA hC _ =>
      have hSame : r'.held = r.held := by rw [held, held, hProbe, hEnded]
      rw [hA, hC, hSame]
      exact hActive
  | inserted _ _ hEnded hA hC _ =>
      have hSame : r'.held = r.held := by rw [held, held, hProbe, hEnded]
      rw [hA, hC, hSame]
      exact hActive
  | incomplete hStage hEnded hA hC _ =>
      have hGone : r'.held = false := by simp [held, hEnded]
      rw [hCounted hStage] at hActive
      rw [hA, hC, hGone]
      simp only [Bool.toNat_true, Bool.toNat_false] at hActive ⊢
      omega
  | completed _ hStage hEnded _ _ hA hC _ =>
      have hGone : r'.held = false := by simp [held, hEnded]
      rw [hCounted hStage] at hActive
      rw [hA, hC, hGone]
      simp only [Bool.toNat_true, Bool.toNat_false] at hActive ⊢
      omega

/-- The held requests, one of them named. -/
theorem countP_held_set {requests : List Request} {t : Nat} (hRequest : requests[t]? = some r) :
    ∃ others, requests.countP Request.held = others + r.held.toNat ∧
      ∀ q, (requests.set t q).countP Request.held = others + q.held.toNat := by
  obtain ⟨ht, rfl⟩ := List.getElem?_eq_some_iff.mp hRequest
  have hSet (q : Request) : (requests.set t q).countP Request.held =
      (requests.take t).countP Request.held + (requests.drop (t + 1)).countP Request.held +
        q.held.toNat := by
    rw [List.set_eq_take_append_cons_drop, if_pos ht, List.countP_append, List.countP_cons]
    cases q.held <;> simp [Nat.add_assoc]
  refine ⟨_, ?_, hSet⟩
  rw [← hSet requests[t], List.set_getElem_self]

/-- One step keeps the counters in balance with the requests that hold an entry. -/
theorem balanced_step {c d : State} {l : Label} (h : Balanced c)
    (hStep : step total entryType c l = some d) : Balanced d := by
  rcases step_cases hStep with ⟨message, _, rfl⟩ | ⟨t, input, r, r', shared, _, hRequest, hTurn, rfl⟩ |
    ⟨_, rfl⟩ | ⟨_, _, rfl⟩
  · rcases c.receive_cases l.now message with ⟨hRequests, _, hActive, hCompleted⟩ |
      ⟨key, isSizesProbe, hRequests, hShared⟩
    · refine ⟨?_, ?_⟩
      · simpa only [hRequests] using h.consistent
      · simpa only [hRequests, hActive, hCompleted] using h.active
    · refine ⟨?_, ?_⟩
      · intro r hMem
        simp only [hRequests, List.mem_append, List.mem_singleton] at hMem
        rcases hMem with hMem | rfl
        · exact h.consistent r hMem
        · exact Request.fresh_consistent key isSizesProbe
      · have hActive := h.active
        simp only [hRequests, hShared, List.countP_append, List.countP_singleton]
        cases isSizesProbe with
        | true =>
            simpa [Shared.requested, Request.held, Request.fresh] using hActive
        | false =>
            have hNew : (Request.fresh key false).held = true := rfl
            rw [if_pos hNew]
            change c.shared.activeRequests + 1 = c.shared.completedRequests + _
            omega
  · obtain ⟨others, hBefore, hCount⟩ := countP_held_set hRequest
    have hOwn := h.consistent r (List.mem_of_getElem? hRequest)
    refine ⟨?_, ?_⟩
    · intro q hMem
      rcases List.mem_or_eq_of_mem_set hMem with hMem | rfl
      · exact h.consistent q hMem
      · exact hOwn.turn hTurn
    · have hActive := h.active
      rw [hBefore] at hActive
      simp only [hCount r']
      exact Request.turn_held hOwn hTurn hActive
  · exact ⟨h.consistent, h.active⟩
  · obtain ⟨_, hActive, hCompleted⟩ := Shared.finish_books (p := c.shared)
    refine ⟨h.consistent, ?_⟩
    simp only [hActive, hCompleted]
    exact h.active

/-- Before any request the books are in balance. -/
theorem balanced_idle : Balanced State.idle := ⟨nofun, rfl⟩

/-- In every run, whatever the streams do. -/
theorem balanced_run {c : State} {ls : List Label}
    (hRun : exec (step total entryType) State.idle ls = some c) : Balanced c :=
  exec_invariant (fun _ _ _ h hStep => balanced_step h hStep) hRun balanced_idle

/-- A payload stream closes only after its request was taken out of the books. -/
def ClosesAfterEnd (c : State) (l : Label) : Prop :=
  match l.action with
  | .turn t .closed => ∀ r ∈ c.requests[t]?, r.isSizesProbe = true ∨ r.ended ≠ none
  | _ => True

instance (c : State) (l : Label) : Decidable (ClosesAfterEnd c l) := by
  unfold ClosesAfterEnd
  split <;> infer_instance

/-- No request has left without being taken out, and each state has its owner. -/
structure Released (c : State) : Prop where
  balanced : Balanced c
  notClosing : ∀ r ∈ c.requests, r.stage ≠ .closing
  returned : ∀ r ∈ c.requests, r.stage = .returned → r.held = false
  owned : ∀ key ∈ c.shared.keys, ∃ r ∈ c.requests, r.key = key ∧ r.held = true

/-- Where a request can go without its stream closing. -/
theorem Request.Consistent.turn_over (hConsistent : r.Consistent)
    (hOpen : input = .closed → r.isSizesProbe = true ∨ r.ended ≠ none)
    (hNotClosing : r.stage ≠ .closing)
    (h : r.turn total entryType now p input = some (p', r')) :
    r'.stage ≠ .closing ∧ (r'.stage = .returned → r'.held = false) := by
  have hSame := turn_key h
  cases input with
  | update u =>
      simp only [Request.turn] at h
      split at h <;> cases h
      cases hProbe : r.isSizesProbe with
      | true => exact ⟨nofun, nofun⟩
      | false =>
          cases u <;> simp only [afterUpdate] <;> (repeat' split) <;> exact ⟨nofun, nofun⟩
  | closed =>
      have hDone : r.held = false := by
        rcases hOpen rfl with hProbe | hEnded
        · simp [held, hProbe]
        · cases hEq : r.ended with
          | none => exact absurd hEq hEnded
          | some how => simp [held, hEq]
      simp only [Request.turn] at h
      split at h <;> cases h
      have hLeft : (!r.isSizesProbe && r.transferStarted && r.ended.isNone) = false := by
        rw [held] at hDone
        rw [Bool.and_right_comm, hDone, Bool.false_and]
      simp only [hLeft]
      exact ⟨nofun, fun _ => hDone⟩
  | go =>
      cases hStage : r.stage with
      | closing => exact absurd hStage hNotClosing
      | receiving => simp [Request.turn, hStage] at h
      | returned => simp [Request.turn, hStage] at h
      | inserting u =>
          simp only [Request.turn, hStage] at h
          cases h
          cases u <;> exact ⟨nofun, nofun⟩
      | accounting index size =>
          simp only [Request.turn, hStage] at h
          cases h
          exact ⟨nofun, nofun⟩
      | measuring endOffset =>
          simp only [Request.turn, hStage] at h
          split at h <;> cases h <;> exact ⟨nofun, nofun⟩
      | finishing =>
          simp only [Request.turn, hStage] at h
          cases h
          exact ⟨nofun, nofun⟩
      | removing bytesSent =>
          simp only [Request.turn, hStage, Request.complete, Request.incomplete] at h
          repeat' split at h
          all_goals cases h
          all_goals exact ⟨nofun, nofun⟩
      | aborting =>
          simp only [Request.turn, hStage] at h
          cases h
          exact ⟨nofun, nofun⟩
      | sleeping wakeAt activeBeforeWait resume =>
          simp only [Request.turn, hStage] at h
          split at h <;> cases h
          exact ⟨nofun, nofun⟩
      | checkingStates quiet resume =>
          simp only [Request.turn, hStage] at h
          cases h
          exact ⟨nofun, nofun⟩
      | checkingLast quiet resume =>
          obtain ⟨⟨bytesSent, hEnded⟩, hResume⟩ := hConsistent.awaited resume (by rw [hStage]; rfl)
          simp only [Request.turn, hStage] at h
          cases h
          refine ⟨?_, fun _ => by simp [held, hEnded]⟩
          rcases hResume with rfl | rfl <;> nofun

/-- A state in the map after a turn is one of another request, or the mover's
own while it is held. -/
theorem Request.turn_owned (hConsistent : r.Consistent) (hNotClosing : r.stage ≠ .closing)
    (h : r.turn total entryType now p input = some (p', r')) {key : RequestKey}
    (hKey : key ∈ p'.keys) :
    (key = r.key ∧ r'.held = true) ∨ (key ∈ p.keys ∧ (key ≠ r.key ∨ r'.held = r.held)) := by
  have hProbe := (turn_key h).2
  have hDropped (hKeys : r.stage = .closing ∨ p'.keys = p.keys.filter (· != r.key)) :
      key ∈ p.keys ∧ key ≠ r.key := by
    rw [hKeys.resolve_left hNotClosing, List.mem_filter] at hKey
    simpa using hKey
  cases turn_books h with
  | kept hEnded _ _ hKeys =>
      exact Or.inr ⟨hKeys ▸ hKey, Or.inr (by rw [held, held, hProbe, hEnded])⟩
  | inserted u hStage hEnded _ _ hKeys =>
      have hBusy : r.stage ≠ .receiving ∧ r.stage ≠ .returned := by
        rw [hStage]
        exact ⟨nofun, nofun⟩
      rw [hKeys] at hKey
      rcases List.mem_cons.mp hKey with rfl | hKept
      · refine Or.inl ⟨rfl, ?_⟩
        simp [held, hProbe, hEnded, hConsistent.payload hBusy, hConsistent.inserting u hStage]
      · rw [List.mem_filter] at hKept
        exact Or.inr ⟨hKept.1, Or.inl (by simpa using hKept.2)⟩
  | incomplete _ _ _ _ hKeys =>
      obtain ⟨hOld, hOther⟩ := hDropped hKeys
      exact Or.inr ⟨hOld, Or.inl hOther⟩
  | completed _ _ _ _ _ _ _ hKeys =>
      obtain ⟨hOld, hOther⟩ := hDropped hKeys
      exact Or.inr ⟨hOld, Or.inl hOther⟩

/-- A step in which no stream closes before its request was taken out keeps the books
released. -/
theorem released_step {c d : State} {l : Label} (h : Released c) (hCloses : ClosesAfterEnd c l)
    (hStep : step total entryType c l = some d) : Released d := by
  have hBalanced := balanced_step h.balanced hStep
  rcases step_cases hStep with ⟨message, _, rfl⟩ |
    ⟨t, input, r, r', shared, hAction, hRequest, hTurn, rfl⟩ | ⟨_, rfl⟩ | ⟨_, _, rfl⟩
  · rcases c.receive_cases l.now message with ⟨hRequests, hKeys, _, _⟩ |
      ⟨key, isSizesProbe, hRequests, hShared⟩
    · refine ⟨hBalanced, ?_, ?_, ?_⟩
      · simpa only [hRequests] using h.notClosing
      · simpa only [hRequests] using h.returned
      · simpa only [hRequests, hKeys] using h.owned
    · have hKeys : (c.receive l.now message).shared.keys = c.shared.keys := by
        rw [hShared]
        cases isSizesProbe <;> rfl
      refine ⟨hBalanced, ?_, ?_, ?_⟩
      · intro r hMem
        simp only [hRequests, List.mem_append, List.mem_singleton] at hMem
        rcases hMem with hMem | rfl
        · exact h.notClosing r hMem
        · nofun
      · intro r hMem hOver
        simp only [hRequests, List.mem_append, List.mem_singleton] at hMem
        rcases hMem with hMem | rfl
        · exact h.returned r hMem hOver
        · cases hOver
      · intro k hKey
        simp only [hKeys] at hKey
        obtain ⟨r, hMem, hOwner⟩ := h.owned k hKey
        refine ⟨r, ?_, hOwner⟩
        simp only [hRequests]
        exact List.mem_append_left _ hMem
  · have hMem := List.mem_of_getElem? hRequest
    have hOwn := h.balanced.consistent r hMem
    have hOpen : input = .closed → r.isSizesProbe = true ∨ r.ended ≠ none := by
      rintro rfl
      simp only [ClosesAfterEnd, hAction] at hCloses
      exact hCloses r hRequest
    obtain ⟨hNotClosing, hOver⟩ := hOwn.turn_over hOpen (h.notClosing r hMem) hTurn
    have hThere : r' ∈ c.requests.set t r' :=
      List.mem_set (List.getElem?_eq_some_iff.mp hRequest).1 r'
    refine ⟨hBalanced, ?_, ?_, ?_⟩
    · intro q hq
      rcases List.mem_or_eq_of_mem_set hq with hq | rfl
      · exact h.notClosing q hq
      · exact hNotClosing
    · intro q hq hStage
      rcases List.mem_or_eq_of_mem_set hq with hq | rfl
      · exact h.returned q hq hStage
      · exact hOver hStage
    · intro key hKey
      have hSame := (Request.turn_key hTurn).1
      rcases Request.turn_owned hOwn (h.notClosing r hMem) hTurn hKey with
        ⟨rfl, hHeld⟩ | ⟨hOld, hApart⟩
      · exact ⟨r', hThere, hSame, hHeld⟩
      · obtain ⟨q, hq, rfl, hHeld⟩ := h.owned key hOld
        obtain ⟨u, hu⟩ := List.mem_iff_getElem?.mp hq
        by_cases hut : u = t
        · subst hut
          obtain rfl : r = q := Option.some.inj (hRequest.symm.trans hu)
          exact ⟨r', hThere, hSame, (hApart.resolve_left (fun h => h rfl)).trans hHeld⟩
        · refine ⟨q, ?_, rfl, hHeld⟩
          exact List.mem_of_getElem? ((List.getElem?_set_ne (Ne.symm hut)).trans hu)
  · exact ⟨hBalanced, h.notClosing, h.returned, h.owned⟩
  · obtain ⟨hKeys, _, _⟩ := Shared.finish_books (p := c.shared)
    refine ⟨hBalanced, h.notClosing, h.returned, ?_⟩
    simpa only [hKeys] using h.owned

/-- Before any request nothing is held. -/
theorem released_idle : Released State.idle := ⟨balanced_idle, nofun, nofun, nofun⟩

/-- With no request in the books the map is empty and the counters agree. -/
theorem Released.empty {c : State} (h : Released c) (hNone : c.requests.countP Request.held = 0) :
    c.shared.transferStates = [] ∧ c.shared.activeRequests ≤ c.shared.completedRequests := by
  refine ⟨?_, by have hActive := h.balanced.active; omega⟩
  cases hStates : c.shared.transferStates with
  | nil => rfl
  | cons entry rest =>
      have hKey : entry.1 ∈ c.shared.keys := by simp [Shared.keys, hStates]
      obtain ⟨r, hMem, _, hHeld⟩ := h.owned entry.1 hKey
      exact absurd hHeld (List.countP_eq_zero.mp hNone r hMem)

/-- In every run the active requests are at least the completed ones. When
streams close only after their requests were taken out, nothing is left in the
books once every request has ended. -/
theorem request_books_settled {c : State} {ls : List Label}
    (hRun : exec (step total entryType) State.idle ls = some c)
    (hMeets : Meets (step total entryType) ClosesAfterEnd State.idle ls) :
    c.shared.completedRequests ≤ c.shared.activeRequests ∧
      ((∀ r ∈ c.requests, r.stage = .returned) →
        c.shared.activeRequests = c.shared.completedRequests ∧ c.shared.transferStates = []) := by
  have hReleased : Released c :=
    hMeets.invariant (fun _ _ _ h hCloses hStep => released_step h hCloses hStep) hRun
      released_idle
  have hActive := hReleased.balanced.active
  refine ⟨by omega, fun hOver => ?_⟩
  have hNone : c.requests.countP Request.held = 0 := by
    rw [List.countP_eq_zero]
    intro r hMem
    simp [hReleased.returned r hMem (hOver r hMem)]
  exact ⟨by omega, (hReleased.empty hNone).1⟩

end

/-- One step of the first request at a time. -/
def firstAt (now : Nat) (input : Input) : Label := ⟨now, .turn 0 input⟩

/-- A file of 1000 bytes that is sent in one request, and its stream. -/
def delivered : List Label :=
  [⟨0, .message (.getRequestReceived (1, 1) false)⟩, firstAt 0 (.update (.started 0 1000)),
    firstAt 0 .go, firstAt 0 .go, firstAt 90 (.update (.progress 1000)), firstAt 90 .go,
    firstAt 90 (.update .completed), firstAt 90 .go, firstAt 90 .go, firstAt 600 .go,
    firstAt 600 .go, firstAt 600 .go, firstAt 600 .closed]

theorem request_books_settled_delivered : ∃ c,
    exec (step 1000 "file") State.idle delivered = some c ∧ c.shared.completedRequests = 1 ∧
      c.shared.transferStates = [] := by
  have hRuns : ∃ c, exec (step 1000 "file") State.idle delivered = some c ∧
      c.shared.completedRequests = 1 ∧ ∀ r ∈ c.requests, r.stage = .returned := by
    decide
  obtain ⟨c, hRun, hCompleted, hOver⟩ := hRuns
  exact ⟨c, hRun, hCompleted, ((request_books_settled hRun (by decide)).2 hOver).2⟩

/-- A stream that closes before its first update stays active, and one that
closes after it leaves its state in the map. -/
theorem request_books_leak :
    (∃ c, exec (step 1000 "file") State.idle
        [⟨0, .message (.getRequestReceived (1, 1) false)⟩, firstAt 0 .closed] = some c ∧
      (∀ r ∈ c.requests, r.stage = .returned) ∧
      c.shared.activeRequests = 1 ∧ c.shared.completedRequests = 0) ∧
    ∃ c, exec (step 1000 "file") State.idle
        [⟨0, .message (.getRequestReceived (1, 1) false)⟩, firstAt 0 (.update (.started 0 1000)),
          firstAt 0 .go, firstAt 0 .go, firstAt 0 .closed, firstAt 0 .go] = some c ∧
      (∀ r ∈ c.requests, r.stage = .returned) ∧ c.shared.transferStates ≠ [] := by
  decide

end AltSendme.ProvideProgress
