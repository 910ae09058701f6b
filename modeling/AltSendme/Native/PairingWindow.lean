import AltSendme.Native.PairingIdentity

/-! The pairing window against the sessions that got past it. The gate is read
once, before a session's first message; afterwards nothing asks whether the
window is still open. -/
namespace AltSendme

variable {Id : Type}
open EndpointKeys (toStr)
open Execution (exec Meets)

namespace Call

/-- The gate was read open, and the caller has yet to look at the allowlist. -/
def passesGate : Call Id → Bool
  | .readAllowed _ isOpen => isOpen
  | _ => false

/-- Steps of remembering and allowing a peer. -/
def admits : Call Id → Bool
  | .store (.remember _) _ | .storeWrite (.remember _) _ _ | .rememberHost _ _
  | .allowPeer _ => true
  | _ => false

end Call

namespace Wait

def isPairing : Wait Id → Bool
  | .acceptBi _ | .pairing _ _ => true
  | _ => false

def isHolding : Wait Id → Bool
  | .holding _ => true
  | _ => false

end Wait

namespace Task

/-- A host session past the gate: it has no result yet, or it completed and
still has a call of kind `q` to make. -/
def InSession (q : Call Id → Bool) (task : Task Id) : Prop :=
  task.wait.isPairing = true ∨
    ∃ call ∈ task.todo, call.passesGate = true ∨ (task.wait.isHolding = true ∧ q call = true)

instance (q : Call Id → Bool) (task : Task Id) : Decidable (task.InSession q) := by
  unfold InSession
  infer_instance

/-- A session that may still remember and allow its peer. -/
abbrev MayAdmit (task : Task Id) : Prop := task.InSession Call.admits

end Task

variable [EndpointKeys Id]

section InSession
variable {q : Call Id → Bool} {n : Node Id} {wait : Wait Id} {task' : Task Id}

omit [EndpointKeys Id] in
theorem Call.passesGate_of_isUnpairing {c : Call Id} (h : c.isUnpairing = true) :
    c.passesGate = false := by
  cases c <;> first | rfl | cases h

omit [EndpointKeys Id] in
theorem Call.passesGate_of_isAnswer {c : Call Id} (h : c.isAnswer = true) :
    c.passesGate = false := by
  cases c <;> first | rfl | cases h

omit [EndpointKeys Id] in
theorem Call.passesGate_of_isFirst {c : Call Id} (h : c.isFirst = true) :
    c.passesGate = false := by
  cases c <;> first | rfl | cases h

/-- A pairing passes the gate only if it was open when it was read. -/
theorem Call.Pushes.passesGate {fresh : Nat} {call c : Call Id} (h : call.Pushes n fresh c)
    (hGate : c.passesGate = true) :
    n.access.pairingHostOpen = true ∧ ∃ conn, call = .readPairingHostOpen conn := by
  cases h with
  | gate conn => exact ⟨hGate, conn, rfl⟩
  | registered conn isOpen c h =>
      simp only [registerInbound, setSession, List.mem_cons, List.not_mem_nil, or_false] at h
      rcases h with rfl | rfl | rfl | rfl <;> cases hGate
  | unpairedKept op cont c h | unpaired op base cont c h =>
      rw [passesGate_of_isUnpairing h] at hGate
      cases hGate
  | _ => cases hGate

/-- A call leads into a session only from inside it or through the open gate. -/
theorem Task.InSession.of_moves {fresh : Nat} {rest : List (Call Id)} {call : Call Id}
    (hq : ∀ c c', Call.Pushes n fresh c c' → q c' = true → q c = true)
    (h : call.Moves n fresh wait rest task') (hSession : task'.InSession q) :
    (Task.mk (call :: rest) wait).InSession q ∨
      (n.access.pairingHostOpen = true ∧ ∃ conn, call = .readPairingHostOpen conn) := by
  have hHolding : task'.wait.isHolding = true → wait.isPairing = true ∨ wait.isHolding = true := by
    intro hEnd
    rcases h.nextWait with hSame | ⟨_, rfl⟩ | ⟨_, _, _, _, hNext⟩ | ⟨_, _, _, hNext⟩ |
      ⟨_, _, rfl, _⟩ | ⟨_, _, _, hNext⟩
    · exact Or.inr (hSame ▸ hEnd)
    · cases hEnd
    · rw [hNext] at hEnd; cases hEnd
    · rw [hNext] at hEnd; cases hEnd
    · exact Or.inl rfl
    · rw [hNext] at hEnd; cases hEnd
  rcases hSession with hPairing | ⟨c, hMem, hCall⟩
  · left
    rcases h.nextWait with hSame | ⟨_, rfl⟩ | ⟨_, _, _, _, hNext⟩ | ⟨conn, rfl, _, _⟩ |
      ⟨_, _, rfl, _⟩ | ⟨_, _, _, hNext⟩
    · exact Or.inl (hSame ▸ hPairing)
    · cases hPairing
    · rw [hNext] at hPairing; cases hPairing
    · exact Or.inr ⟨_, List.mem_cons_self, Or.inl rfl⟩
    · exact Or.inl rfl
    · rw [hNext] at hPairing; cases hPairing
  · rcases h.pushed with hNone | ⟨_, _, _, _, rfl, _⟩ | ⟨pushed, hTodo, hPushed⟩
    · rw [hNone] at hMem; cases hMem
    · exact Or.inl (Or.inl rfl)
    · rw [hTodo] at hMem
      rcases List.mem_append.mp hMem with hNew | hOld
      · rcases hCall with hGate | ⟨hEnd, hKind⟩
        · exact Or.inr ((hPushed c hNew).passesGate hGate)
        · refine Or.inl ((hHolding hEnd).imp_right fun hWait => ?_)
          exact ⟨call, List.mem_cons_self, Or.inr ⟨hWait, hq call c (hPushed c hNew) hKind⟩⟩
      · left
        rcases hCall with hGate | ⟨hEnd, hKind⟩
        · exact Or.inr ⟨c, List.mem_cons_of_mem call hOld, Or.inl hGate⟩
        · exact (hHolding hEnd).imp_right fun hWait =>
            ⟨c, List.mem_cons_of_mem call hOld, Or.inr ⟨hWait, hKind⟩⟩

/-- An answer from outside leads into a session only from inside it. -/
theorem Task.InSession.of_resume {input : Input} (h : wait.resume n input = some task')
    (hSession : task'.InSession q) : wait.isPairing = true := by
  obtain ⟨hAnswers, hKind⟩ := Wait.resume_kind h
  have hHost : task'.wait.kind = .hostSession := by
    rcases hSession with hPairing | ⟨c, hMem, hGate | ⟨hHolding, _⟩⟩
    · cases hWait : task'.wait <;> rw [hWait] at hPairing <;> first | rfl | cases hPairing
    · rw [Call.passesGate_of_isAnswer (List.all_eq_true.mp hAnswers c hMem)] at hGate
      cases hGate
    · cases hWait : task'.wait <;> rw [hWait] at hHolding <;> first | rfl | cases hHolding
  rcases hKind with hSame | ⟨ok, hReturned⟩
  · rw [hHost] at hSame
    cases wait <;> try first | rfl | cases hSame
    -- a completed session that is over returns
    cases input <;> simp only [Wait.resume, reduceCtorEq, Option.some.injEq] at h
    rw [← h] at hHost
    cases hHost
  · rw [hReturned] at hHost
    cases hHost

omit [EndpointKeys Id] in
theorem Task.not_inSession_returned (ok : Bool) : ¬ (Task.returned ok : Task Id).InSession q := by
  simp [InSession, Task.returned, Wait.isPairing]

theorem NewTask.not_inSession {task : Task Id} (h : NewTask task) : ¬ task.InSession q := by
  obtain ⟨hTodo, hWait⟩ := h.isFirst
  have hNoPairing : task.wait.isPairing = false ∧ task.wait.isHolding = false := by
    cases hCase : task.wait <;> rw [hCase] at hWait <;>
      first | exact ⟨rfl, rfl⟩ | cases hWait
  rintro (hPairing | ⟨c, hMem, hGate | ⟨hHolding, _⟩⟩)
  · rw [hNoPairing.1] at hPairing
    cases hPairing
  · rw [Call.passesGate_of_isFirst (List.all_eq_true.mp hTodo c hMem)] at hGate
    cases hGate
  · rw [hNoPairing.2] at hHolding
    cases hHolding

variable [DecidableEq Id]

/-- A turn leads into a session only from inside it or through the open gate. -/
theorem Task.InSession.of_turn {n' : Node Id} {self fresh : Nat} {task : Task Id} {input : Input}
    {spawned : List (Task Id)}
    (hq : ∀ c c', Call.Pushes n fresh c c' → q c' = true → q c = true)
    (h : task.turn n self fresh input = some (n', task', spawned)) (hSession : task'.InSession q) :
    task.InSession q ∨ (n.access.pairingHostOpen = true ∧ n' = n ∧
      ∃ conn rest, task.todo = .readPairingHostOpen conn :: rest) := by
  rcases Task.turn_eq_some h with ⟨_, _, _, rfl, _⟩ | ⟨_, _, _, hNext⟩ |
    ⟨call, rest, hTodo, hExec⟩
  · exact absurd hSession (Task.not_inSession_returned false)
  · exact Or.inl (Or.inl (hSession.of_resume hNext))
  · obtain ⟨todo, wait⟩ := task
    obtain rfl := hTodo
    rcases hSession.of_moves hq (Call.exec_moves hExec) with hIn | ⟨hOpen, conn, rfl⟩
    · exact Or.inl hIn
    · refine Or.inr ⟨hOpen, ?_, conn, rest, rfl⟩
      cases Call.exec_changes hExec
      rfl

end InSession

section Closing
variable [DecidableEq Id]

omit [EndpointKeys Id] [DecidableEq Id] in
theorem Call.admits_of_isUnpairing {c : Call Id} (h : c.isUnpairing = true) :
    c.admits = false := by
  cases c <;> first | rfl | cases h

omit [DecidableEq Id] in
/-- Only a call that admits pushes one that does. -/
theorem Call.Pushes.admits {n : Node Id} {fresh : Nat} (call c : Call Id)
    (h : call.Pushes n fresh c)
    (hAdmits : c.admits = true) : call.admits = true := by
  cases h with
  | registered conn isOpen c h =>
      simp only [registerInbound, setSession, List.mem_cons, List.not_mem_nil, or_false] at h
      rcases h with rfl | rfl | rfl | rfl <;> cases hAdmits
  | write op cont =>
      cases op <;> first | rfl | cases hAdmits
  | unpairedKept op cont c h | unpaired op base cont c h =>
      rw [admits_of_isUnpairing h] at hAdmits
      cases hAdmits
  | remember => rfl
  | _ => cases hAdmits

/-- If the step closes the window, no session past the gate is left. -/
def ClosesBetweenSessions (c : NodeConfig Id) : NodeLabel Id → Prop
  | .turn t _ => nextCall c t = some (.setAccessOpen false) → ∀ other ∈ c.tasks, ¬ other.MayAdmit
  | _ => True

instance (c : NodeConfig Id) (l : NodeLabel Id) : Decidable (ClosesBetweenSessions c l) :=
  match l with
  | .turn _ _ => inferInstanceAs (Decidable (_ = _ → _))
  | .call _ | .restart _ => .isTrue trivial

/-- Sessions past the gate are inside an open window. -/
def SessionsInWindow (c : NodeConfig Id) : Prop :=
  c.All fun n task => task.MayAdmit → n.access.pairingHostOpen = true

/-- One step keeps every session inside the window it came through, if none closes under it.
-/
theorem sessionsInWindow_step {c d : NodeConfig Id} {l : NodeLabel Id}
    (hAll : SessionsInWindow c) (hClose : ClosesBetweenSessions c l) (hStep : step c l = some d) :
    SessionsInWindow d := by
  have hKept (t : Nat) (input : Input) (task : Task Id) (n' : Node Id) (task' : Task Id)
      (spawned : List (Task Id)) (u : Nat) (other : Task Id) (hl : l = .turn t input)
      (hTask : c.tasks[t]? = some task)
      (hTurn : task.turn c.shared t c.tasks.length input = some (n', task', spawned))
      (hOther : c.tasks[u]? = some other) (hMay : other.MayAdmit) :
      n'.access.pairingHostOpen = true := by
    have hOpen := hAll u other hOther hMay
    rcases Task.turn_changes hTurn with rfl | ⟨call, rest, hTodo, hChanges, _⟩
    · exact hOpen
    · rcases hChanges.pairingHostOpen with hSame | ⟨isOpen, rfl, hSet⟩
      · rw [hSame, hOpen]
      · cases isOpen with
        | true => exact hSet
        | false =>
            subst hl
            exact absurd hMay (hClose (nextCall_eq_some.mpr ⟨task, rest, hTask, hTodo⟩) other
              (List.mem_of_getElem? hOther))
  refine step_all hAll hStep (fun n task hNew hMay => absurd hMay hNew.not_inSession) ?_ ?_
  · intro t input task n' task' spawned hl hTask _ hTurn hMay
    rcases hMay.of_turn Call.Pushes.admits hTurn with hBefore | ⟨hOpen, rfl, _⟩
    · exact hKept t input task n' task' spawned t task hl hTask hTurn hTask hBefore
    · exact hOpen
  · intro t input task n' task' spawned u other hl hTask hTurn _ hOther _ hMay
    exact hKept t input task n' task' spawned u other hl hTask hTurn hOther hMay

/-- As long as the window closes only between sessions, a host session that is
about to remember or to allow its peer does so inside an open window. -/
theorem admits_inside_open_window {restart : Restart Id} {file : List PairedDevice}
    {ls : List (NodeLabel Id)} {c : NodeConfig Id} {t : Nat} {conn : Connection Id}
    {call : Call Id} {rest : List (Call Id)}
    (hRun : exec step (started restart file) ls = some c)
    (hMeets : Meets step ClosesBetweenSessions (started restart file) ls)
    (hTask : c.tasks[t]? = some ⟨call :: rest, .holding conn⟩) (hAdmits : call.admits = true) :
    c.shared.access.pairingHostOpen = true := by
  have hStart : SessionsInWindow (started restart file) := by
    intro u task hNew hMay
    exact absurd hMay (started_new hNew).not_inSession
  have hAll := hMeets.invariant (fun _ _ _ => sessionsInWindow_step) hRun hStart
  exact hAll t _ hTask (Or.inr ⟨call, List.mem_cons_self, Or.inr ⟨rfl, hAdmits⟩⟩)

end Closing

section Devices

/-- Alice admits Bob while her window is open. -/
def orderlyRun : List (NodeLabel HexId) :=
  pairingRun bob (ourInfo (desktop bob) [1, 2, 3]) ++ goes 2 2

/-- The same session, but the window is closed before Bob's messages are read. -/
def lateRun : List (NodeLabel HexId) :=
  [.call (.startPairingHost none)] ++ goes 1 7 ++ [.call (.inbound (inboundFrom bob))] ++
    goes 2 5 ++ [.call .stopPairingHost] ++ goes 3 4 ++
    [.turn 2 (.message (.pairingInfo (ourInfo (desktop bob) [1, 2, 3])))] ++ goes 2 1 ++
    [.turn 2 (.message (.rememberVote "s" .remember))] ++ goes 2 3

theorem admits_inside_open_window_orderly : ∃ c rest,
    exec step (started (.onIdentity (desktop alice)) []) orderlyRun = some c ∧
      c.tasks[2]? = some ⟨.allowPeer bob :: rest, .holding (inboundFrom bob)⟩ ∧
      c.shared.access.pairingHostOpen = true := by
  have hRuns : ∃ c, exec step (started (.onIdentity (desktop alice)) []) orderlyRun = some c ∧
      c.tasks[2]? = some ⟨[.allowPeer bob, .refresh, .emit .devicePaired,
        .send (rememberVote (inboundFrom bob)) false, .closeUnlessPersistent],
        .holding (inboundFrom bob)⟩ := by
    decide +kernel
  obtain ⟨c, hRun, hTask⟩ := hRuns
  refine ⟨c, _, hRun, hTask, admits_inside_open_window hRun ?_ hTask rfl⟩
  decide +kernel

/-- Bob is remembered and allowed after `stop_pairing_host` has returned. -/
theorem admitted_after_stop : ∃ c,
    exec step (started (.onIdentity (desktop alice)) []) lateRun = some c ∧
      c.tasks[3]? = some (Task.returned true) ∧ c.shared.access.pairingHostOpen = false ∧
      bob ∉ c.shared.access.allowed ∧
      ∃ d, step c (.turn 2 (.go 0)) = some d ∧ bob ∈ d.shared.access.allowed ∧
        (PairedDeviceStore.get String.toLowercase d.shared.file (toStr bob)).isSome = true := by
  decide +kernel

end Devices
end AltSendme
