import AltSendme.Native.Abort
import AltSendme.Native.PairingWindow

/-! How many devices a timed window pairs. The first completed session closes
the window, but only after its peer has been remembered, allowed and reported;
until then the gate lets others in. -/
namespace AltSendme

variable {Id : Type}
open Execution (exec Meets)
open Execution.Pool (getElem?_turn_self getElem?_turn_other)

namespace Call

/-- The steps that end a completed session's timed window. -/
def closes : Call Id → Bool
  | .closeUnlessPersistent | .setAccessOpen false => true
  | _ => false

/-- What only `start_pairing_host` does. -/
def starts : Call Id → Bool
  | .setPairingHostPersistent true | .setAccessOpen true => true
  | _ => false

end Call

/-- A session past the gate whose result, or whose closing of the window, is
still to come. -/
abbrev Task.Pending (task : Task Id) : Prop := task.InSession Call.closes

def Task.IsStarting (task : Task Id) : Prop := ∃ call ∈ task.todo, call.starts = true

instance (task : Task Id) : Decidable task.IsStarting := by
  unfold Task.IsStarting
  infer_instance

/-- The rest of a completed session once its record is written. -/
def finish (conn : Connection Id) : List (Call Id) :=
  [.allowPeer conn.remote, .refresh, .emit .devicePaired, .send (rememberVote conn) false,
    .closeUnlessPersistent]

/-- Everything a session can have left to do once its message loop ended. -/
inductive Completing (conn : Connection Id) : List (Call Id) → Prop where
  | remember (device : PairedDevice) :
      Completing conn (.store (.remember device) .ignore :: finish conn)
  | write (device : PairedDevice) (base : List PairedDevice) :
      Completing conn (.storeWrite (.remember device) base .ignore :: finish conn)
  | allow : Completing conn (finish conn)
  | refresh : Completing conn [.refresh, .emit .devicePaired, .send (rememberVote conn) false,
      .closeUnlessPersistent]
  | refreshTasks (active : List PairedDevice) : Completing conn [.refreshTasks active,
      .emit .devicePaired, .send (rememberVote conn) false, .closeUnlessPersistent]
  | report : Completing conn
      [.emit .devicePaired, .send (rememberVote conn) false, .closeUnlessPersistent]
  | vote : Completing conn [.send (rememberVote conn) false, .closeUnlessPersistent]
  | close : Completing conn [.closeUnlessPersistent]
  | closing : Completing conn [.setAccessOpen false]
  | ended : Completing conn [.send (rememberVote conn) false]
  | over : Completing conn []

variable [EndpointKeys Id]

/-- One call of a completed session. Its last call shuts a timed window. -/
theorem Completing.moves {n : Node Id} {fresh : Nat} {conn : Connection Id} {call : Call Id}
    {rest : List (Call Id)} {task' : Task Id} (h : Completing conn (call :: rest))
    (hMoves : call.Moves n fresh (.holding conn) rest task') :
    task'.wait = .holding conn ∧ Completing conn task'.todo ∧
      ((call :: rest).any Call.closes → n.pairingHostPersistent = false →
        task'.todo.any Call.closes ∨ call = .setAccessOpen false) := by
  cases h with
  | remember device =>
      cases hMoves with
      | onward => exact ⟨rfl, .allow, fun _ _ => Or.inl rfl⟩
      | storeRead => exact ⟨rfl, .write device n.file, fun _ _ => Or.inl rfl⟩
      | storeKept => exact ⟨rfl, .allow, fun _ _ => Or.inl rfl⟩
      | stopped _ _ hStop => cases hStop
  | write device base =>
      cases hMoves with
      | onward => exact ⟨rfl, .allow, fun _ _ => Or.inl rfl⟩
      | storeWritten => exact ⟨rfl, .allow, fun _ _ => Or.inl rfl⟩
      | stopped _ _ hStop => cases hStop
  | allow =>
      cases hMoves with
      | onward => exact ⟨rfl, .refresh, fun _ _ => Or.inl rfl⟩
      | stopped _ _ hStop => cases hStop
  | refresh =>
      cases hMoves with
      | onward => exact ⟨rfl, .report, fun _ _ => Or.inl rfl⟩
      | refreshing => exact ⟨rfl, .refreshTasks _, fun _ _ => Or.inl rfl⟩
      | stopped _ _ hStop => cases hStop
  | refreshTasks active =>
      cases hMoves with
      | onward => exact ⟨rfl, .report, fun _ _ => Or.inl rfl⟩
      | stopped _ _ hStop => cases hStop
  | report =>
      cases hMoves with
      | onward => exact ⟨rfl, .vote, fun _ _ => Or.inl rfl⟩
      | stopped _ _ hStop => cases hStop
  | vote =>
      cases hMoves with
      | onward => exact ⟨rfl, .close, fun _ _ => Or.inl rfl⟩
      | stopped _ _ hStop => cases hStop
  | close =>
      cases hMoves with
      | onward _ hPersistent =>
          refine ⟨rfl, .over, fun _ hTimed => ?_⟩
          rw [hPersistent rfl] at hTimed
          cases hTimed
      | closing => exact ⟨rfl, .closing, fun _ _ => Or.inl rfl⟩
      | stopped _ _ hStop => cases hStop
  | closing =>
      cases hMoves with
      | onward => exact ⟨rfl, .over, fun _ _ => Or.inr rfl⟩
      | stopped _ _ hStop => cases hStop
  | ended =>
      cases hMoves with
      | onward => exact ⟨rfl, .over, fun hAny => by cases hAny⟩
      | stopped _ _ hStop => cases hStop

/-- Sessions whose loop ended are somewhere in `Completing`. -/
def Task.Completes (task : Task Id) : Prop :=
  ∀ conn, task.wait = .holding conn → Completing conn task.todo

omit [EndpointKeys Id] in
/-- A session is pending as long as the closing of the window is before it. -/
theorem Completing.pending_iff {conn : Connection Id} {todo : List (Call Id)}
    (h : Completing conn todo) :
    (Task.mk todo (.holding conn)).Pending ↔ todo.any Call.closes = true := by
  have hNoGate : ∀ call ∈ todo, call.passesGate = false := by
    cases h <;> simp [finish, Call.passesGate]
  rw [List.any_eq_true]
  constructor
  · rintro (hPairing | ⟨call, hMem, hGate | ⟨_, hCloses⟩⟩)
    · cases hPairing
    · rw [hNoGate call hMem] at hGate
      cases hGate
    · exact ⟨call, hMem, hCloses⟩
  · rintro ⟨call, hMem, hCloses⟩
    exact Or.inr ⟨call, hMem, Or.inr ⟨rfl, hCloses⟩⟩

/-- An answer leads out of the message loop without a result. -/
theorem Completing.of_resume {n : Node Id} {wait : Wait Id} {input : Input} {task' : Task Id}
    {conn : Connection Id} (h : wait.resume n input = some task')
    (hEnd : task'.wait = .holding conn) : Completing conn task'.todo := by
  have hKind : wait.kind = .hostSession := by
    rcases (Wait.resume_kind h).2 with hSame | ⟨ok, hReturned⟩
    · rw [← hSame, hEnd]
      rfl
    · rw [hReturned] at hEnd
      cases hEnd
  cases wait <;> cases hKind
  all_goals cases input <;> simp only [Wait.resume, reduceCtorEq, Option.some.injEq] at h
  case pairing.refl.message other s m =>
    obtain ⟨_, s', hStay⟩ := onPairingMessage_isAnswer other m s
    rw [← h, hStay] at hEnd
    cases hEnd
  case pairing.refl.closed other s =>
    subst h
    unfold pairingLoopEnded at hEnd ⊢
    dsimp only at hEnd ⊢
    split at hEnd
    · cases hEnd
      split
      · exact .ended
      · exact .over
    · cases hEnd
  all_goals
    subst h
    cases hEnd

/-- A call leads out of the message loop only by completing the pairing. -/
theorem Call.Moves.completed_of_holding {n : Node Id} {fresh : Nat} {wait : Wait Id}
    {call : Call Id} {rest : List (Call Id)} {task' : Task Id} {conn : Connection Id}
    (h : call.Moves n fresh wait rest task') (hEnd : task'.wait = .holding conn)
    (hWait : wait ≠ .holding conn) :
    ∃ info now, task' = pairingCompleted conn info now n.homeRelayUrl := by
  cases h with
  | completed other s info now =>
      cases hEnd
      exact ⟨info, now, rfl⟩
  | storeKept op cont reply | storeWritten op base cont reply =>
      rcases cont.resume_eq rest wait reply with ⟨_, hNext⟩ | ⟨pushed, hNext, _⟩
      · rw [hNext] at hEnd
        cases hEnd
      · rw [hNext] at hEnd
        exact absurd hEnd hWait
  | stopped | gatePaired | gatePassed | invited | connecting => cases hEnd
  | _ => exact absurd hEnd hWait

variable [DecidableEq Id]

/-- One turn keeps a completed session on its way to closing the window. -/
theorem Task.Completes.of_turn {n n' : Node Id} {self fresh : Nat} {task task' : Task Id}
    {input : Input} {spawned : List (Task Id)} (hTask : task.Completes)
    (h : task.turn n self fresh input = some (n', task', spawned)) : task'.Completes := by
  intro conn hEnd
  rcases Task.turn_eq_some h with ⟨_, _, _, rfl, _⟩ | ⟨_, _, _, hNext⟩ |
    ⟨call, rest, hTodo, hExec⟩
  · cases hEnd
  · exact .of_resume hNext hEnd
  · have hMoves := Call.exec_moves hExec
    by_cases hWait : task.wait = .holding conn
    · rw [hWait] at hMoves
      exact (Completing.moves (hTodo ▸ hTask conn hWait) hMoves).2.1
    · obtain ⟨info, now, rfl⟩ := hMoves.completed_of_holding hEnd hWait
      exact .remember _

omit [DecidableEq Id] in
/-- A new task has completed nothing. -/
theorem NewTask.completes {task : Task Id} (h : NewTask task) : task.Completes := by
  intro conn hWait
  have hFirst := h.isFirst.2
  rw [hWait] at hFirst
  cases hFirst

section Starting
variable {n n' : Node Id} {self fresh : Nat} {task task' : Task Id} {input : Input}
  {spawned : List (Task Id)}

/-- No turn makes a task start a window that did not before. -/
theorem Task.IsStarting.of_turn (h : task.turn n self fresh input = some (n', task', spawned))
    (hStarting : task'.IsStarting) : task.IsStarting := by
  obtain ⟨c, hMem, hStarts⟩ := hStarting
  rcases Task.turn_eq_some h with ⟨_, _, _, rfl, _⟩ | ⟨_, _, _, hNext⟩ |
    ⟨call, rest, hTodo, hExec⟩
  · cases hMem
  · have hAnswer := List.all_eq_true.mp (Wait.resume_kind hNext).1 c hMem
    unfold Call.starts at hStarts
    split at hStarts <;> first | cases hAnswer | cases hStarts
  · rcases (Call.exec_moves hExec).pushed with hNone | ⟨_, _, _, _, _, _, rfl⟩ |
      ⟨pushed, hNext, hPushed⟩
    · rw [hNone] at hMem
      cases hMem
    · simp only [pairingCompleted, List.mem_cons, List.not_mem_nil, or_false] at hMem
      rcases hMem with rfl | rfl | rfl | rfl | rfl | rfl <;> cases hStarts
    · rw [hNext] at hMem
      rcases List.mem_append.mp hMem with hNew | hOld
      · cases hPushed c hNew with
        | registered conn isOpen _ h =>
            simp only [registerInbound, setSession, List.mem_cons, List.not_mem_nil, or_false] at h
            rcases h with rfl | rfl | rfl | rfl <;> cases hStarts
        | unpairedKept _ _ _ h | unpaired _ _ _ _ h =>
            unfold Call.starts at hStarts
            split at hStarts <;> first | cases h | cases hStarts
        | _ => cases hStarts
      · exact ⟨c, by rw [hTodo]; exact List.mem_cons_of_mem call hOld, hStarts⟩

/-- A timed flag stays timed unless a window is being started. -/
theorem Task.pairingHostPersistent_of_turn
    (h : task.turn n self fresh input = some (n', task', spawned)) (hTask : ¬ task.IsStarting)
    (hTimed : n.pairingHostPersistent = false) : n'.pairingHostPersistent = false := by
  rcases Task.turn_changes h with rfl | ⟨call, rest, hTodo, hChanges, _⟩
  · exact hTimed
  · cases hChanges with
    | hostPersistent persistent =>
        cases persistent with
        | false => rfl
        | true => exact absurd ⟨_, by rw [hTodo]; exact List.mem_cons_self, rfl⟩ hTask
    | presence endpointId writer => simpa using hTimed
    | _ => exact hTimed

/-- A closed window stays closed unless a window is being started. -/
theorem Task.pairingHostOpen_of_turn
    (h : task.turn n self fresh input = some (n', task', spawned)) (hTask : ¬ task.IsStarting)
    (hClosed : n.access.pairingHostOpen = false) : n'.access.pairingHostOpen = false := by
  rcases Task.turn_changes h with rfl | ⟨call, rest, hTodo, hChanges, _⟩
  · exact hClosed
  · rcases hChanges.pairingHostOpen with hSame | ⟨isOpen, rfl, hSet⟩
    · rw [hSame, hClosed]
    · cases isOpen with
      | false => exact hSet
      | true => exact absurd ⟨_, by rw [hTodo]; exact List.mem_cons_self, rfl⟩ hTask

theorem Task.spawned_not_isStarting {new : Task Id}
    (h : task.turn n self fresh input = some (n', task', spawned)) (hNew : new ∈ spawned) :
    ¬ new.IsStarting := by
  rcases Task.spawned_cases h hNew with ⟨rfl, _⟩ | ⟨endpointId, relayUrl, rfl⟩
  · rintro ⟨c, hMem, _⟩
    cases hMem
  · rintro ⟨c, hMem, hStarts⟩
    obtain rfl := List.mem_singleton.mp hMem
    cases hStarts

end Starting

omit [EndpointKeys Id] [DecidableEq Id] in
theorem Command.Starts.not_isStarting {command : Command Id} {task : Task Id}
    (hStarts : command.Starts task) (h : ∀ ttlSecs, command ≠ .startPairingHost ttlSecs) :
    ¬ task.IsStarting := by
  cases hStarts with
  | persistentHost => exact absurd rfl (h none)
  | timedHost ttlSecs => exact absurd rfl (h (some ttlSecs))
  | _ =>
      simp [Task.IsStarting, Task.returned, managerForget, AltSendme.stopPairingHost, Call.starts]

omit [EndpointKeys Id] [DecidableEq Id] in
theorem Call.closes_of_isUnpairing {c : Call Id} (h : c.isUnpairing = true) :
    c.closes = false := by
  cases c <;> first | rfl | cases h

omit [DecidableEq Id] in
/-- Only a call that closes pushes one that does. -/
theorem Call.Pushes.closes {n : Node Id} {fresh : Nat} (call c : Call Id)
    (h : call.Pushes n fresh c) (hCloses : c.closes = true) : call.closes = true := by
  cases h with
  | registered conn isOpen c h =>
      simp only [registerInbound, setSession, List.mem_cons, List.not_mem_nil, or_false] at h
      rcases h with rfl | rfl | rfl | rfl <;> cases hCloses
  | unpairedKept op cont c h | unpaired op base cont c h =>
      rw [closes_of_isUnpairing h] at hCloses
      cases hCloses
  | close => rfl
  | _ => cases hCloses

/-- A completed session of a timed window goes on until it has shut it. -/
theorem Task.Pending.of_turn {n n' : Node Id} {self fresh : Nat} {task task' : Task Id}
    {input : Input} {spawned : List (Task Id)} {conn : Connection Id} (hPending : task.Pending)
    (hWait : task.wait = .holding conn) (hCompletes : task.Completes) (hInput : input ≠ .cancelled)
    (hTimed : n.pairingHostPersistent = false)
    (h : task.turn n self fresh input = some (n', task', spawned)) :
    task'.wait = .holding conn ∧ (task'.Pending ∨
      (n'.access.pairingHostOpen = false ∧ ¬ task'.Pending)) := by
  obtain ⟨todo, wait⟩ := task
  obtain rfl : wait = .holding conn := hWait
  have hCompleting := hCompletes conn rfl
  rw [hCompleting.pending_iff] at hPending
  rcases Task.turn_eq_some h with ⟨hCancelled, _⟩ | ⟨rfl, _⟩ | ⟨call, rest, rfl, hExec⟩
  · exact absurd hCancelled hInput
  · cases hPending
  · obtain ⟨todo', wait'⟩ := task'
    obtain ⟨rfl, hNext, hStay⟩ := hCompleting.moves (Call.exec_moves hExec)
    refine ⟨rfl, ?_⟩
    rw [hNext.pending_iff]
    rcases hStay hPending hTimed with hMore | rfl
    · exact Or.inl hMore
    · right
      cases input <;> simp only [Call.exec, reduceCtorEq, Option.some.injEq, Prod.mk.injEq] at hExec
      obtain ⟨rfl, hTask', _⟩ := hExec
      cases hCompleting
      cases hTask'
      exact ⟨rfl, by simp⟩

/-- A session enters only when no other is pending, a window opens only when
none is, and calls of `start_pairing_host` do not overlap. -/
def OneSession (c : NodeConfig Id) : NodeLabel Id → Prop
  | .call (.startPairingHost _) => ∀ task ∈ c.tasks, ¬ task.IsStarting
  | .turn t _ =>
      match nextCall c t with
      | some (.setAccessOpen true) => ∀ other ∈ c.tasks, ¬ other.Pending
      | some (.readPairingHostOpen _) =>
          c.shared.access.pairingHostOpen = true → ∀ other ∈ c.tasks, ¬ other.Pending
      | _ => True
  | _ => True

instance (c : NodeConfig Id) (l : NodeLabel Id) : Decidable (OneSession c l) := by
  rcases l with command | ⟨t, input⟩ | restart
  · rcases command <;> try exact .isTrue trivial
    exact inferInstanceAs (Decidable (∀ task ∈ c.tasks, _))
  · dsimp only [OneSession]
    rcases nextCall c t with _ | call
    · exact .isTrue trivial
    rcases call <;> try exact .isTrue trivial
    · exact inferInstanceAs (Decidable (_ = true → _))
    next isOpen =>
      rcases isOpen
      · exact .isTrue trivial
      · exact inferInstanceAs (Decidable (∀ other ∈ c.tasks, _))
  · exact .isTrue trivial

/-- The peer whose record or allowlist entry a host session writes next. -/
def Task.admitting (task : Task Id) : Option Id :=
  match task.todo, task.wait with
  | .storeWrite (.remember _) _ _ :: _, .holding conn => some conn.remote
  | .allowPeer _ :: _, .holding conn => some conn.remote
  | _, _ => none

def admittedBy (c : NodeConfig Id) : NodeLabel Id → Option Id
  | .turn t _ => c.tasks[t]?.bind Task.admitting
  | _ => none

/-- The peers admitted along a run, with one entry for each of those steps. -/
def admitted : NodeConfig Id → List (NodeLabel Id) → List Id
  | _, [] => []
  | c, l :: ls =>
      match step c l with
      | none => []
      | some d => (admittedBy c l).toList ++ admitted d ls

omit [EndpointKeys Id] [DecidableEq Id] in
/-- A task that admits a peer is about to make an admitting call. -/
theorem Task.admitting_eq_some {task : Task Id} {r : Id} (h : task.admitting = some r) :
    ∃ call rest conn, task.todo = call :: rest ∧ task.wait = .holding conn ∧
      call.admits = true ∧ r = conn.remote := by
  unfold admitting at h
  split at h
  · next hTodo hWait => exact ⟨_, _, _, hTodo, hWait, rfl, (Option.some.inj h).symm⟩
  · next hTodo hWait => exact ⟨_, _, _, hTodo, hWait, rfl, (Option.some.inj h).symm⟩
  · cases h

/-- A timed window that has admitted the peers `peers`. Only the session that
admitted one can be past the gate; once it is over the window is shut. -/
structure OneAdmission (peers : List Id) (c : NodeConfig Id) : Prop where
  timed : c.shared.pairingHostPersistent = false
  noStart : ∀ (t : Nat) (task : Task Id), c.tasks[t]? = some task → ¬ task.IsStarting
  completes : ∀ (t : Nat) (task : Task Id), c.tasks[t]? = some task → task.Completes
  handles : HandlesInBackground c
  onePending : ∀ (u v : Nat) (a b : Task Id), c.tasks[u]? = some a → c.tasks[v]? = some b →
    a.Pending → b.Pending → u = v
  same : ∀ r ∈ peers, ∀ s ∈ peers, r = s
  closing : peers = [] ∨
    (c.shared.access.pairingHostOpen = false ∧
      ∀ (t : Nat) (task : Task Id), c.tasks[t]? = some task → ¬ task.Pending) ∨
    ∃ (u : Nat) (task : Task Id) (conn : Connection Id), c.tasks[u]? = some task ∧
      task.wait = .holding conn ∧ task.Pending ∧ ∀ r ∈ peers, r = conn.remote

omit [EndpointKeys Id] [DecidableEq Id] in
/-- Admitting is a step of a session that still has to shut the window. -/
theorem Task.pending_of_admitting {task : Task Id} {r : Id} (h : task.admitting = some r)
    (hCompletes : task.Completes) :
    ∃ conn, task.wait = .holding conn ∧ task.Pending ∧ r = conn.remote ∧
      task.todo.head? ≠ some (.setAccessOpen false) := by
  obtain ⟨call, rest, conn, hTodo, hWait, hAdmits, rfl⟩ := admitting_eq_some h
  have hCompleting := hCompletes conn hWait
  obtain ⟨todo, wait⟩ := task
  obtain rfl : wait = .holding conn := hWait
  obtain rfl : todo = call :: rest := hTodo
  refine ⟨conn, rfl, (hCompleting.pending_iff).mpr ?_, rfl, ?_⟩
  · cases hCompleting <;> first | rfl | cases hAdmits
  · rintro ⟨⟩
    cases hAdmits

/-- One turn admits nobody new after the first peer, if sessions come one at a time. -/
theorem OneAdmission.turn {peers : List Id} {c : NodeConfig Id} {t : Nat} {input : Input}
    {task task' : Task Id} {n' : Node Id} {spawned : List (Task Id)}
    (h : OneAdmission peers c) (hOne : OneSession c (.turn t input))
    (hTask : c.tasks[t]? = some task)
    (hTurn : task.turn c.shared t c.tasks.length input = some (n', task', spawned)) :
    OneAdmission (peers ++ task.admitting.toList) ⟨n', c.tasks.set t task' ++ spawned⟩ := by
  have hNoStart := h.noStart t task hTask
  -- a pending task after the turn was pending before it, or passed an open gate
  have hBack (u : Nat) (found : Task Id)
      (hFound : (c.tasks.set t task' ++ spawned)[u]? = some found) (hPending : found.Pending) :
      (∃ old, c.tasks[u]? = some old ∧ old.Pending) ∨
        (u = t ∧ c.shared.access.pairingHostOpen = true ∧
          ∀ other ∈ c.tasks, ¬ other.Pending) := by
    rcases Execution.Pool.getElem?_after_turn hFound with ⟨rfl, _, rfl⟩ | ⟨_, hOld⟩ | ⟨_, hNew⟩
    · rcases Task.InSession.of_turn Call.Pushes.closes hTurn hPending with
        hBefore | ⟨hOpen, _, conn, rest, hTodo⟩
      · exact Or.inl ⟨task, hTask, hBefore⟩
      · have hCall := nextCall_eq_some.mpr ⟨task, rest, hTask, hTodo⟩
        simp only [OneSession, hCall] at hOne
        exact Or.inr ⟨rfl, hOpen, hOne hOpen⟩
    · exact Or.inl ⟨found, hOld, hPending⟩
    · exact absurd hPending (Task.spawned_new hTurn hNew).not_inSession
  have hUnique (u v : Nat) (a b : Task Id)
      (hu : (c.tasks.set t task' ++ spawned)[u]? = some a)
      (hv : (c.tasks.set t task' ++ spawned)[v]? = some b) (ha : a.Pending) (hb : b.Pending) :
      u = v := by
    rcases hBack u a hu ha with ⟨x, hx, hxPending⟩ | ⟨rfl, _, hNone⟩
    · rcases hBack v b hv hb with ⟨y, hy, hyPending⟩ | ⟨_, _, hNone⟩
      · exact h.onePending u v x y hx hy hxPending hyPending
      · exact absurd hxPending (hNone x (List.mem_of_getElem? hx))
    · rcases hBack v b hv hb with ⟨y, hy, hyPending⟩ | ⟨rfl, _, _⟩
      · exact absurd hyPending (hNone y (List.mem_of_getElem? hy))
      · rfl
  have hNext : (c.tasks.set t task' ++ spawned)[t]? = some task' :=
    getElem?_turn_self (List.getElem?_eq_some_iff.mp hTask).1
  -- the session that admits in this step is the one that has admitted before
  have hStay (conn : Connection Id) (hWait : task.wait = .holding conn) (hPending : task.Pending) :
      task'.wait = .holding conn ∧ (task'.Pending ∨
        (n'.access.pairingHostOpen = false ∧ ¬ task'.Pending)) := by
    refine hPending.of_turn hWait (h.completes t task hTask) ?_ h.timed hTurn
    rintro rfl
    obtain ⟨hKind, _⟩ := h.handles.of_cancelled hTask hTurn
    rw [hWait] at hKind
    rcases hKind with hKind | hKind | hKind <;> cases hKind
  have hPeers (r : Id) (hAdmits : task.admitting = some r) (s : Id) (hs : s ∈ peers) : r = s := by
    obtain ⟨conn, hWait, hPending, rfl, _⟩ :=
      Task.pending_of_admitting hAdmits (h.completes t task hTask)
    rcases h.closing with rfl | ⟨_, hNone⟩ | ⟨u, found, other, hFound, hHolding, hFoundPending, hAll⟩
    · cases hs
    · exact absurd hPending (hNone t task hTask)
    · obtain rfl := h.onePending t u task found hTask hFound hPending hFoundPending
      obtain rfl := Option.some.inj (hTask.symm.trans hFound)
      rw [hWait] at hHolding
      cases hHolding
      exact (hAll s hs).symm
  refine ⟨Task.pairingHostPersistent_of_turn hTurn hNoStart h.timed, ?_, ?_, ?_, hUnique, ?_, ?_⟩
  · intro u found hFound hStarting
    rcases Execution.Pool.getElem?_after_turn hFound with ⟨_, _, rfl⟩ | ⟨_, hOld⟩ | ⟨_, hNew⟩
    · exact hNoStart (hStarting.of_turn hTurn)
    · exact h.noStart u found hOld hStarting
    · exact Task.spawned_not_isStarting hTurn hNew hStarting
  · intro u found hFound
    rcases Execution.Pool.getElem?_after_turn hFound with ⟨_, _, rfl⟩ | ⟨_, hOld⟩ | ⟨_, hNew⟩
    · exact (h.completes t task hTask).of_turn hTurn
    · exact h.completes u found hOld
    · exact (Task.spawned_new hTurn hNew).completes
  · refine handlesInBackground_step (l := .turn t input) h.handles ?_
    exact (Execution.Pool.next_turn_eq_some _).mpr
      ⟨task, n', task', spawned, hTask, hTurn, rfl⟩
  · intro r hr s hs
    rcases List.mem_append.mp hr with hr | hr <;> rcases List.mem_append.mp hs with hs | hs
    · exact h.same r hr s hs
    · exact (hPeers s (Option.mem_toList.mp hs) r hr).symm
    · exact hPeers r (Option.mem_toList.mp hr) s hs
    · exact Option.some.inj ((Option.mem_toList.mp hr).symm.trans (Option.mem_toList.mp hs))
  · -- the session that has admitted goes on, or has just shut the window
    have hOwn (conn : Connection Id) (hWait : task.wait = .holding conn) (hPending : task.Pending) :
        (n'.access.pairingHostOpen = false ∧ ∀ (u : Nat) (found : Task Id),
          (c.tasks.set t task' ++ spawned)[u]? = some found → ¬ found.Pending) ∨
        (task'.wait = .holding conn ∧ task'.Pending) := by
      obtain ⟨hHolding, hGoes | ⟨hShut, hOver⟩⟩ := hStay conn hWait hPending
      · exact Or.inr ⟨hHolding, hGoes⟩
      · refine Or.inl ⟨hShut, fun u found hFound hFoundPending => ?_⟩
        have hSame : u = t := by
          rcases hBack u found hFound hFoundPending with ⟨old, hOld, hOldPending⟩ | ⟨rfl, _⟩
          · exact h.onePending u t old task hOld hTask hOldPending hPending
          · rfl
        subst hSame
        obtain rfl := Option.some.inj (hNext.symm.trans hFound)
        exact hOver hFoundPending
    cases hAdmits : task.admitting with
    | some r =>
        obtain ⟨conn, hWait, hPending, rfl, _⟩ :=
          Task.pending_of_admitting hAdmits (h.completes t task hTask)
        rcases hOwn conn hWait hPending with hShut | ⟨hHolding, hGoes⟩
        · exact Or.inr (Or.inl hShut)
        · refine Or.inr (Or.inr ⟨t, task', conn, hNext, hHolding, hGoes, ?_⟩)
          intro s hs
          rcases List.mem_append.mp hs with hs | hs
          · exact (hPeers _ hAdmits s hs).symm
          · simpa using hs
    | none =>
        simp only [Option.toList_none, List.append_nil]
        rcases h.closing with hNone | ⟨hShut, hNone⟩ | ⟨u, found, conn, hFound, hWait, hPending, hAll⟩
        · exact Or.inl hNone
        · refine Or.inr (Or.inl ⟨Task.pairingHostOpen_of_turn hTurn hNoStart hShut, ?_⟩)
          intro u found hFound hPending
          rcases hBack u found hFound hPending with ⟨old, hOld, hOldPending⟩ | ⟨_, hOpen, _⟩
          · exact hNone u old hOld hOldPending
          · rw [hShut] at hOpen
            cases hOpen
        · by_cases hSame : u = t
          · subst hSame
            obtain rfl := Option.some.inj (hTask.symm.trans hFound)
            rcases hOwn conn hWait hPending with hShut | ⟨hHolding, hGoes⟩
            · exact Or.inr (Or.inl hShut)
            · exact Or.inr (Or.inr ⟨u, task', conn, hNext, hHolding, hGoes, hAll⟩)
          · exact Or.inr (Or.inr ⟨u, found, conn, getElem?_turn_other hSame hFound, hWait,
              hPending, hAll⟩)

/-- One step admits nobody new after the first peer, if sessions come one at a time. -/
theorem OneAdmission.step {peers : List Id} {c d : NodeConfig Id} {l : NodeLabel Id}
    (h : OneAdmission peers c) (hOne : OneSession c l)
    (hLabel : ∀ ttlSecs, l ≠ .call (.startPairingHost ttlSecs)) (hStep : step c l = some d) :
    OneAdmission (peers ++ (admittedBy c l).toList) d := by
  cases l with
  | turn t input =>
      obtain ⟨task, n', task', spawned, hTask, hTurn, rfl⟩ :=
        (Execution.Pool.next_turn_eq_some _).mp hStep
      have hSame : admittedBy c (.turn t input) = task.admitting := by
        simp only [admittedBy, hTask, Option.bind_some]
      rw [hSame]
      exact h.turn hOne hTask hTurn
  | call command =>
      obtain rfl := Option.some.inj hStep
      simp only [admittedBy, Option.toList_none, List.append_nil]
      have hNew : NewTask (nodePool.start command : Task Id) := .command command
      have hOld (u : Nat) (found : Task Id)
          (hFound : (c.tasks ++ [nodePool.start command])[u]? = some found)
          (hPending : found.Pending) : c.tasks[u]? = some found := by
        rcases Execution.Pool.getElem?_after_call hFound with hOld | ⟨_, rfl⟩
        · exact hOld
        · exact absurd hPending hNew.not_inSession
      refine ⟨h.timed, ?_, ?_, handlesInBackground_step (l := .call command) h.handles rfl, ?_,
        h.same, ?_⟩
      · intro u found hFound
        rcases Execution.Pool.getElem?_after_call hFound with hFound | ⟨_, rfl⟩
        · exact h.noStart u found hFound
        · exact command.starts.not_isStarting fun ttlSecs hCommand => hLabel ttlSecs (by rw [hCommand])
      · intro u found hFound
        rcases Execution.Pool.getElem?_after_call hFound with hFound | ⟨_, rfl⟩
        · exact h.completes u found hFound
        · exact hNew.completes
      · intro u v a b hu hv ha hb
        exact h.onePending u v a b (hOld u a hu ha) (hOld v b hv hb) ha hb
      · rcases h.closing with hNone | ⟨hShut, hNone⟩ | ⟨u, found, conn, hFound, hRest⟩
        · exact Or.inl hNone
        · exact Or.inr (Or.inl ⟨hShut, fun u found hFound hPending =>
            hNone u found (hOld u found hFound hPending) hPending⟩)
        · refine Or.inr (Or.inr ⟨u, found, conn, ?_, hRest⟩)
          rw [List.getElem?_append_left (List.getElem?_eq_some_iff.mp hFound).1, hFound]
  | restart restart =>
      have hHandles := handlesInBackground_step h.handles hStep
      obtain rfl := Option.some.inj hStep
      simp only [admittedBy, Option.toList_none, List.append_nil]
      have hNew (u : Nat) (found : Task Id)
          (hFound : (nodePool.restart restart c.shared).2[u]? = some found) :
          NewTask found ∧ ¬ found.IsStarting := by
        obtain rfl := List.mem_singleton.mp (List.mem_of_getElem? hFound)
        exact ⟨.supervisor, by simp [Task.IsStarting, Call.starts]⟩
      refine ⟨rfl, fun u found hFound => (hNew u found hFound).2,
        fun u found hFound => (hNew u found hFound).1.completes, hHandles, ?_, h.same, ?_⟩
      · intro u v a b hu _ ha _
        exact absurd ha (hNew u a hu).1.not_inSession
      · exact Or.inr (Or.inl ⟨rfl, fun u found hFound => (hNew u found hFound).1.not_inSession⟩)

/-- The run lemma: whatever has been admitted and will be is one peer. -/
theorem OneAdmission.admitted {peers : List Id} {c : NodeConfig Id} {ls : List (NodeLabel Id)}
    (h : OneAdmission peers c) (hMeets : Meets AltSendme.step OneSession c ls)
    (hLabels : ∀ l ∈ ls, ∀ ttlSecs, l ≠ .call (.startPairingHost ttlSecs)) :
    ∀ r ∈ peers ++ AltSendme.admitted c ls, ∀ s ∈ peers ++ AltSendme.admitted c ls, r = s := by
  induction ls generalizing peers c with
  | nil => simpa [AltSendme.admitted] using h.same
  | cons l ls ih =>
      cases hStep : AltSendme.step c l with
      | none => simpa [AltSendme.admitted, hStep] using h.same
      | some d =>
          have hNext := h.step hMeets.1 (hLabels l List.mem_cons_self) hStep
          have hRest := ih hNext (hMeets.2 d hStep) fun m hm =>
            hLabels m (List.mem_cons_of_mem l hm)
          simpa [AltSendme.admitted, hStep] using hRest

/-- Only one task is starting a window, a timed one; its flag is set before
the window opens. -/
def Opening (ttl : UInt64) (c : NodeConfig Id) : Prop :=
  ∃ starter, ∀ (u : Nat) (task : Task Id), c.tasks[u]? = some task → task.IsStarting →
    u = starter ∧ ∃ k, task = ⟨(startPairingHost (some ttl)).drop k, .returned true⟩ ∧
      (5 ≤ k → c.shared.pairingHostPersistent = false)

/-- The starter's own turn. -/
theorem Opening.own {ttl : UInt64} {n n' : Node Id} {self fresh k : Nat} {task' : Task Id}
    {input : Input} {spawned : List (Task Id)} (hFlag : 5 ≤ k → n.pairingHostPersistent = false)
    (h : Task.turn n self fresh ⟨(startPairingHost (some ttl)).drop k, .returned true⟩ input =
      some (n', task', spawned)) (hStarting : task'.IsStarting) :
    task' = ⟨(startPairingHost (some ttl)).drop (k + 1), .returned true⟩ ∧
      (5 ≤ k + 1 → n'.pairingHostPersistent = false) := by
  rcases Task.turn_eq_some h with ⟨_, _, _, rfl, _⟩ | ⟨_, _, _, hNext⟩ |
    ⟨call, rest, hTodo, hExec⟩
  · obtain ⟨_, hMem, _⟩ := hStarting
    cases hMem
  · cases input <;> cases hNext
  · have hBound : k < 8 := by
      by_contra hge
      rw [List.drop_eq_nil_of_le (by simp [startPairingHost, stopPairingHost]; omega)] at hTodo
      cases hTodo
    have hStage : k = 0 ∨ k = 1 ∨ k = 2 ∨ k = 3 ∨ k = 4 ∨ k = 5 ∨ k = 6 ∨ k = 7 := by omega
    rcases hStage with rfl | rfl | rfl | rfl | rfl | rfl | rfl | rfl <;>
      cases hTodo <;> cases input <;> cases hExec
    -- before the flag, the call that clears it, and the two after it
    · exact ⟨rfl, fun hLate => absurd hLate (by decide)⟩
    · exact ⟨rfl, fun hLate => absurd hLate (by decide)⟩
    · exact ⟨rfl, fun hLate => absurd hLate (by decide)⟩
    · exact ⟨rfl, fun hLate => absurd hLate (by decide)⟩
    · exact ⟨rfl, fun _ => rfl⟩
    · exact ⟨rfl, fun _ => hFlag (by decide)⟩
    · exact ⟨rfl, fun _ => hFlag (by decide)⟩
    · obtain ⟨c, hMem, hStarts⟩ := hStarting
      obtain rfl := List.mem_singleton.mp hMem
      cases hStarts

/-- Until another start a window being opened stays one. -/
theorem Opening.step {ttl : UInt64} {c d : NodeConfig Id} {l : NodeLabel Id} (h : Opening ttl c)
    (hLabel : ∀ ttlSecs, l ≠ .call (.startPairingHost ttlSecs))
    (hStep : AltSendme.step c l = some d) :
    Opening ttl d := by
  obtain ⟨starter, hStarter⟩ := h
  refine ⟨starter, ?_⟩
  cases l with
  | call command =>
      obtain rfl := Option.some.inj hStep
      intro u task hTask hStarting
      rcases Execution.Pool.getElem?_after_call hTask with hOld | ⟨_, rfl⟩
      · exact hStarter u task hOld hStarting
      · exact absurd hStarting
          (command.starts.not_isStarting fun ttlSecs hCommand => hLabel ttlSecs (by rw [hCommand]))
  | restart restart =>
      obtain rfl := Option.some.inj hStep
      intro u task hTask hStarting
      obtain rfl := List.mem_singleton.mp (List.mem_of_getElem? hTask)
      simp [Task.IsStarting, Call.starts] at hStarting
  | turn t input =>
      obtain ⟨task, n', task', spawned, hTask, hTurn, rfl⟩ :=
        (Execution.Pool.next_turn_eq_some _).mp hStep
      intro u found hFound hStarting
      rcases Execution.Pool.getElem?_after_turn hFound with ⟨rfl, _, rfl⟩ | ⟨hne, hOld⟩ | ⟨_, hNew⟩
      · obtain ⟨rfl, k, rfl, hFlag⟩ := hStarter _ task hTask (hStarting.of_turn hTurn)
        obtain ⟨hNext, hFlag'⟩ := Opening.own hFlag hTurn hStarting
        exact ⟨rfl, k + 1, hNext, hFlag'⟩
      · obtain ⟨rfl, k, rfl, hFlag⟩ := hStarter u found hOld hStarting
        refine ⟨rfl, k, rfl, fun hLate => ?_⟩
        refine Task.pairingHostPersistent_of_turn hTurn (fun hOther => ?_) (hFlag hLate)
        exact hne (hStarter t task hTask hOther).1.symm
      · exact absurd hStarting (Task.spawned_not_isStarting hTurn hNew)

/-- The window opens, timed, and with no session under way. -/
theorem Opening.opened {ttl : UInt64} {c d : NodeConfig Id} {t : Nat} {input : Input}
    (h : Opening ttl c) (hOpens : nextCall c t = some (.setAccessOpen true))
    (hOne : OneSession c (.turn t input)) (hStep : AltSendme.step c (.turn t input) = some d)
    (hCompletes : d.All fun _ task => task.Completes) (hHandles : HandlesInBackground d) :
    OneAdmission [] d := by
  obtain ⟨starter, hStarter⟩ := h
  simp only [OneSession, hOpens] at hOne
  obtain ⟨task, rest, hTask, hTodo⟩ := nextCall_eq_some.mp hOpens
  obtain ⟨found, n', task', spawned, hFound, hTurn, rfl⟩ :=
    (Execution.Pool.next_turn_eq_some _).mp hStep
  obtain rfl := Option.some.inj (hTask.symm.trans hFound)
  have hStarting : task.IsStarting := ⟨_, by rw [hTodo]; exact List.mem_cons_self, rfl⟩
  obtain ⟨rfl, k, rfl, hFlag⟩ := hStarter t task hTask hStarting
  have hLate : 5 ≤ k := by
    by_contra hEarly
    have hStage : k = 0 ∨ k = 1 ∨ k = 2 ∨ k = 3 ∨ k = 4 := by omega
    rcases hStage with rfl | rfl | rfl | rfl | rfl <;> cases hTodo
  have hNone (u : Nat) (found : Task Id)
      (hFound : (c.tasks.set t task' ++ spawned)[u]? = some found) : ¬ found.Pending := by
    intro hPending
    rcases Execution.Pool.getElem?_after_turn hFound with ⟨rfl, _, rfl⟩ | ⟨_, hOld⟩ | ⟨_, hNew⟩
    · rcases Task.InSession.of_turn Call.Pushes.closes hTurn hPending with hBefore |
        ⟨_, _, _, _, hGate⟩
      · exact hOne _ (List.mem_of_getElem? hTask) hBefore
      · rw [hTodo] at hGate
        cases hGate
    · exact hOne found (List.mem_of_getElem? hOld) hPending
    · exact (Task.spawned_new hTurn hNew).not_inSession hPending
  refine ⟨?_, ?_, hCompletes, hHandles, ?_, by simp, Or.inl rfl⟩
  · rcases Task.turn_changes hTurn with rfl | ⟨call, rest', hCall, hChanges, _⟩
    · exact hFlag hLate
    · rw [hTodo] at hCall
      cases hCall
      cases hChanges <;> exact hFlag hLate
  · intro u found hFound hAgain
    rcases Execution.Pool.getElem?_after_turn hFound with ⟨rfl, _, rfl⟩ | ⟨hne, hOld⟩ | ⟨_, hNew⟩
    · obtain ⟨rfl, _⟩ := Opening.own hFlag hTurn hAgain
      obtain ⟨call, hMem, hStarts⟩ := hAgain
      have hStage : k = 5 ∨ k = 6 ∨ 7 ≤ k := by omega
      rcases hStage with rfl | rfl | hPast
      · cases hTodo
      · obtain rfl := List.mem_singleton.mp hMem
        cases hStarts
      · rw [List.drop_eq_nil_of_le (by simp [startPairingHost, stopPairingHost]; omega)] at hMem
        cases hMem
    · exact hne (hStarter u found hOld hAgain).1
    · exact Task.spawned_not_isStarting hTurn hNew hAgain
  · intro u v a b hu _ ha _
    exact absurd ha (hNone u a hu)

/-- What needs no condition along a run. -/
def SessionsComplete (c : NodeConfig Id) : Prop :=
  (c.All fun _ task => task.Completes) ∧ HandlesInBackground c

/-- In every run completed sessions are on their way to closing the window. -/
theorem sessionsComplete_of_run {restart : Restart Id} {file : List PairedDevice}
    {ls : List (NodeLabel Id)} {c : NodeConfig Id}
    (hRun : exec AltSendme.step (started restart file) ls = some c) : SessionsComplete c := by
  have hStart : SessionsComplete (started restart file) :=
    ⟨fun t task hTask => (started_new hTask).completes, handlesInBackground_started restart file⟩
  refine Execution.exec_invariant ?_ hRun hStart
  rintro c l d ⟨hAll, hHandles⟩ hStep
  refine ⟨?_, handlesInBackground_step hHandles hStep⟩
  exact step_all hAll hStep (fun _ _ hNew => hNew.completes)
    (fun _ _ _ _ _ _ _ _ hInv hTurn => hInv.of_turn hTurn)
    (fun _ _ _ _ _ _ _ _ _ _ _ _ _ hInv => hInv)

/-- A timed window admits one peer, if sessions come one after another: from
the step that opens it on, and until another start, every record and every
allowlist entry a host session writes is that of one peer. -/
theorem timed_window_admits_one_peer {restart : Restart Id} {file : List PairedDevice}
    {ttl : UInt64} {ls₁ ls₂ ls₃ : List (NodeLabel Id)} {c d : NodeConfig Id} {t : Nat}
    {input : Input}
    (hRun : exec AltSendme.step (started restart file)
      (ls₁ ++ .call (.startPairingHost (some ttl)) :: ls₂) = some c)
    (hOpens : nextCall c t = some (.setAccessOpen true))
    (hStep : AltSendme.step c (.turn t input) = some d)
    (hLabels : ∀ l ∈ ls₂ ++ ls₃, ∀ ttlSecs, l ≠ .call (.startPairingHost ttlSecs))
    (hMeets : Meets AltSendme.step OneSession (started restart file)
      ((ls₁ ++ .call (.startPairingHost (some ttl)) :: ls₂) ++ .turn t input :: ls₃)) :
    ∀ r ∈ admitted d ls₃, ∀ s ∈ admitted d ls₃, r = s := by
  obtain ⟨b, hBefore, hAfter⟩ := Execution.exec_append_eq_some.mp hRun
  obtain ⟨b', hCall, hRest⟩ := Option.bind_eq_some_iff.mp hAfter
  have hAlone : ∀ task ∈ b.tasks, ¬ task.IsStarting := by
    rw [List.append_assoc] at hMeets
    exact hMeets.at_step hBefore
  have hOpening : Opening ttl b' := by
    obtain rfl := Option.some.inj hCall
    refine ⟨b.tasks.length, fun u task hTask hStarting => ?_⟩
    rcases Execution.Pool.getElem?_after_call hTask with hOld | ⟨rfl, rfl⟩
    · exact absurd hStarting (hAlone task (List.mem_of_getElem? hOld))
    · exact ⟨rfl, 0, rfl, fun hLate => absurd hLate (by decide)⟩
  have hQuiet : Meets AltSendme.step
      (fun _ l => ∀ ttlSecs, l ≠ .call (.startPairingHost ttlSecs)) b' ls₂ :=
    .of_forall fun l hl _ => hLabels l (List.mem_append_left ls₃ hl)
  have hOpening' : Opening ttl c :=
    hQuiet.invariant (fun _ _ _ hInv hLabel hNext => hInv.step hLabel hNext) hRest hOpening
  have hOne := hMeets.drop hRun
  have hAll := sessionsComplete_of_run (Execution.exec_concat_eq_some.mpr ⟨c, hRun, hStep⟩)
  have hStart := hOpening'.opened hOpens hOne.1 hStep hAll.1 hAll.2
  simpa using hStart.admitted (hOne.2 d hStep) fun l hl =>
    hLabels l (List.mem_append_right ls₂ hl)

section Devices

def sessionOf (remote : HexId) (t : Nat) : List (NodeLabel HexId) :=
  [.turn t (.message (.pairingInfo (ourInfo (desktop remote) [1, 2, 3])))] ++ goes t 1 ++
    [.turn t (.message (.rememberVote "s" .remember))] ++ goes t 4

/-- Up to the step that opens a window of a minute. -/
def timedStart : List (NodeLabel HexId) := [] ++ .call (.startPairingHost (some 60)) :: goes 1 6

/-- Bob alone, to the end of his session. -/
def oneGuest : List (NodeLabel HexId) :=
  goes 1 2 ++ [.call (.inbound (inboundFrom bob))] ++ goes 3 5 ++ sessionOf bob 3

/-- Bob and Mallory are both past the gate before either session completes. -/
def twoGuests : List (NodeLabel HexId) :=
  goes 1 2 ++ [.call (.inbound (inboundFrom bob)), .call (.inbound (inboundFrom mallory))] ++
    goes 3 5 ++ goes 4 5 ++ sessionOf bob 3 ++ sessionOf mallory 4

theorem timed_window_admits_one_peer_oneGuest : ∃ c d,
    exec AltSendme.step (started (.onIdentity (desktop alice)) []) timedStart = some c ∧
      AltSendme.step c (.turn 1 (.go 0)) = some d ∧ bob ∈ admitted d oneGuest ∧
      ∀ r ∈ admitted d oneGuest, ∀ s ∈ admitted d oneGuest, r = s := by
  have hRuns : ∃ c, exec AltSendme.step (started (.onIdentity (desktop alice)) []) timedStart = some c ∧
      nextCall c 1 = some (.setAccessOpen true) ∧
      ∃ d, AltSendme.step c (.turn 1 (.go 0)) = some d ∧ bob ∈ admitted d oneGuest := by
    decide +kernel
  obtain ⟨c, hRun, hOpens, d, hStep, hBob⟩ := hRuns
  refine ⟨c, d, hRun, hStep, hBob, ?_⟩
  refine @timed_window_admits_one_peer _ _ _ _ _ _ [] _ _ _ _ _ _ hRun hOpens hStep ?_ ?_
  · simp [goes, oneGuest, sessionOf]
  · decide +kernel

/-- One timed window, two peers. -/
theorem timed_window_admits_two : ∃ c,
    exec AltSendme.step (started (.onIdentity (desktop alice)) []) timedStart = some c ∧
      ∃ d, AltSendme.step c (.turn 1 (.go 0)) = some d ∧
        bob ∈ admitted d twoGuests ∧ mallory ∈ admitted d twoGuests := by
  decide +kernel

end Devices
end AltSendme
