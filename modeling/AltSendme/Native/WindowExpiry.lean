import AltSendme.Native.SessionTable
import AltSendme.Native.TimedWindow

/-! How long a pairing window stays as it was opened. The expiry task of an
earlier window is aborted, but not joined: past its sleep it goes on to write,
and what it writes is the state of the window that was opened in the meantime. -/
namespace AltSendme

variable {Id : Type}
open Execution (exec Meets lastVerdict lastVerdict_concat)
open Execution.Pool (getElem?_after_turn getElem?_after_call getElem?_turn_self
  getElem?_turn_other getElem?_call_old)

/-- What a start, a stop and an expiry write. -/
inductive WindowFlag where
  | hostOpen
  | persistent
  | access
  deriving DecidableEq

def Node.windowFlag (n : Node Id) : WindowFlag → Bool
  | .hostOpen => n.pairingHostOpen
  | .persistent => n.pairingHostPersistent
  | .access => n.access.pairingHostOpen

def Call.sets : Call Id → Option (WindowFlag × Bool)
  | .setPairingHostOpen isOpen => some (.hostOpen, isOpen)
  | .setPairingHostPersistent persistent => some (.persistent, persistent)
  | .setAccessOpen isOpen => some (.access, isOpen)
  | _ => none

/-- What `start_pairing_host` leaves in the flags. -/
def startSets (ttlSecs : Option UInt64) : WindowFlag → Bool
  | .hostOpen | .access => true
  | .persistent => pairingHostIsPersistent ttlSecs

/-- No call of the list writes the flag any more. -/
def FlagSettled (flag : WindowFlag) (todo : List (Call Id)) : Prop :=
  ∀ call ∈ todo, call.sets.map (·.1) ≠ some flag

instance (flag : WindowFlag) (todo : List (Call Id)) : Decidable (FlagSettled flag todo) := by
  unfold FlagSettled
  infer_instance

/-- Calls that neither write a flag nor spawn what will. -/
def Call.leavesWindow : Call Id → Bool
  | .setPairingHostOpen _ | .setPairingHostPersistent _ | .setAccessOpen _
  | .spawnExpireTask => false
  | _ => true

/-- A task other than a completed pairing that may still write the flag to another
value: a start, a stop or an expiry with that write to do, a start with an expiry
to spawn, or an expiry that sleeps and that nobody aborted. -/
def Task.MayUndo (aborted : List Nat) (flag : WindowFlag) (value : Bool) (handle : Nat)
    (task : Task Id) : Prop :=
  (task.wait.isHolding = false ∧ ∃ call ∈ task.todo, call.sets = some (flag, !value)) ∨
    (value = true ∧ ((task.wait.isHolding = false ∧ .spawnExpireTask ∈ task.todo) ∨
      (task.wait = .sleeping ∧ handle ∉ aborted)))

instance [DecidableEq Id] (aborted : List Nat) (flag : WindowFlag) (value : Bool) (handle : Nat)
    (task : Task Id) : Decidable (task.MayUndo aborted flag value handle) :=
  inferInstanceAs (Decidable (_ ∨ _))

section Quiet
variable {call : Call Id} {flag : WindowFlag} {value : Bool}

theorem Call.not_sets_of_leavesWindow (h : call.leavesWindow = true) :
    call.sets = none ∧ call ≠ .spawnExpireTask := by
  cases call <;> simp_all [Call.leavesWindow, Call.sets]

theorem Call.leavesWindow_of_isUnpairing (h : call.isUnpairing = true) :
    call.leavesWindow = true := by
  cases call <;> first | rfl | cases h

variable [EndpointKeys Id]

/-- Recognition never touches the window. -/
theorem onRecognition_leavesWindow (conn : Connection Id) (signature : String) :
    (onRecognition conn signature).all Call.leavesWindow = true := by
  unfold onRecognition
  split <;> rfl

/-- Being forgotten never touches the window. -/
theorem onForget_leavesWindow (conn : Connection Id) (signature : String) (paired : Bool) :
    (onForget conn signature paired).all Call.leavesWindow = true := by
  unfold onForget
  split <;> rfl

/-- The answers of the pairing loop leave the window as it is. -/
theorem onPairingMessage_leavesWindow (conn : Connection Id) (s : PairingSession)
    (m : ControlMessage) : (onPairingMessage conn s m).todo.all Call.leavesWindow = true := by
  cases m with
  | pairingInfo info =>
      unfold onPairingMessage
      dsimp only
      split <;> rfl
  | recognition signature =>
      rw [onPairingMessage, List.all_append, onRecognition_leavesWindow]
      rfl
  | forget signature =>
      rw [onPairingMessage, List.all_append, onForget_leavesWindow]
      rfl
  | _ => rfl

/-- The answers of the paired loop leave the window as it is. -/
theorem onPairedMessage_leavesWindow (conn : Connection Id) (m : ControlMessage) :
    (onPairedMessage conn m).todo.all Call.leavesWindow = true := by
  cases m with
  | recognition signature => exact onRecognition_leavesWindow conn signature
  | forget signature =>
      unfold onPairedMessage
      dsimp only
      split
      · rw [List.all_append, onForget_leavesWindow]
        rfl
      · rfl
  | _ => rfl

/-- The answers of the outbound loop leave the window as it is. -/
theorem onOutboundMessage_leavesWindow (endpointId : String) (relayUrl : Option String)
    (conn : Connection Id) (m : ControlMessage) :
    (onOutboundMessage endpointId relayUrl conn m).todo.all Call.leavesWindow = true := by
  cases m with
  | recognition signature => exact onRecognition_leavesWindow conn signature
  | _ => rfl

/-- A joiner leaves its own window as it is. -/
theorem onHostInfo_leavesWindow (conn : Connection Id) (relayUrl : Option String)
    (m : ControlMessage) : (onHostInfo conn relayUrl m).todo.all Call.leavesWindow = true := by
  cases m with
  | pairingInfo info =>
      unfold onHostInfo
      dsimp only
      split <;> rfl
  | _ => rfl

/-- Only a timer that runs out leads to writes of the flags. -/
theorem Wait.Answers.leavesWindow {n : Node Id} {wait : Wait Id} {input : Input} {task' : Task Id}
    (h : wait.Answers n input task') (hAwake : wait ≠ .sleeping) :
    task'.todo.all Call.leavesWindow = true := by
  cases h with
  | pairingRead conn s m => exact onPairingMessage_leavesWindow conn s m
  | pairingLost conn s =>
      unfold pairingLoopEnded
      dsimp only
      split <;> rfl
  | pairedRead conn m => exact onPairedMessage_leavesWindow conn m
  | hostRead conn relayUrl m => exact onHostInfo_leavesWindow conn relayUrl m
  | outboundRead endpointId relayUrl conn m =>
      exact onOutboundMessage_leavesWindow endpointId relayUrl conn m
  | notifyDialled remote endpointId message fallbackPresence =>
      cases fallbackPresence <;> rfl
  | expired => exact absurd rfl hAwake
  | _ => rfl

/-- Closing a window is the one call that leads to another write. -/
theorem Call.Pushes.leavesWindow {n : Node Id} {fresh : Nat} {c : Call Id}
    (h : call.Pushes n fresh c) (hOther : call ≠ .closeUnlessPersistent) : c.leavesWindow = true := by
  cases h with
  | registered conn isOpen c h =>
      simp only [registerInbound, setSession, List.mem_cons, List.not_mem_nil, or_false] at h
      rcases h with rfl | rfl | rfl | rfl <;> rfl
  | unpairedKept op cont c h | unpaired op base cont c h => exact leavesWindow_of_isUnpairing h
  | close => exact absurd rfl hOther
  | _ => rfl

variable [DecidableEq Id]

/-- A turn leaves a flag as it is, or performs the call that writes it. -/
theorem Task.windowFlag_of_turn {n n' : Node Id} {self fresh : Nat} {task task' : Task Id}
    {input : Input} {spawned : List (Task Id)} (flag : WindowFlag)
    (h : task.turn n self fresh input = some (n', task', spawned)) :
    n'.windowFlag flag = n.windowFlag flag ∨ ∃ call rest, task.todo = call :: rest ∧
      call.sets = some (flag, n'.windowFlag flag) := by
  rcases Task.turn_changes h with rfl | ⟨call, rest, hTodo, hChanges, _⟩
  · exact Or.inl rfl
  · cases hChanges with
    | accessOpen isOpen =>
        cases flag with
        | access => exact Or.inr ⟨_, rest, hTodo, rfl⟩
        | _ => exact Or.inl rfl
    | hostOpen isOpen =>
        cases flag with
        | hostOpen => exact Or.inr ⟨_, rest, hTodo, rfl⟩
        | _ => exact Or.inl rfl
    | hostPersistent persistent =>
        cases flag with
        | persistent => exact Or.inr ⟨_, rest, hTodo, rfl⟩
        | _ => exact Or.inl rfl
    | presence endpointId writer =>
        left
        unfold Node.setPresence
        dsimp only
        split <;> cases flag <;> rfl
    | _ => exact Or.inl (by cases flag <;> rfl)

/-- The handles of aborted tasks stay known. -/
theorem Task.aborted_of_turn {n n' : Node Id} {self fresh handle : Nat} {task task' : Task Id}
    {input : Input} {spawned : List (Task Id)}
    (h : task.turn n self fresh input = some (n', task', spawned)) (hAborted : handle ∈ n.aborted) :
    handle ∈ n'.aborted := by
  rcases Task.turn_changes h with rfl | ⟨call, rest, _, hChanges, _⟩
  · exact hAborted
  · exact hChanges.aborted hAborted

end Quiet

section Others
variable [EndpointKeys Id] {n n' : Node Id} {self fresh : Nat} {task task' : Task Id}
  {input : Input} {spawned : List (Task Id)} {flag : WindowFlag} {value : Bool}

omit [EndpointKeys Id] in
theorem Wait.isHolding_iff {wait : Wait Id} :
    wait.isHolding = true ↔ ∃ conn, wait = .holding conn := by
  cases wait <;> simp [isHolding]

/-- Only a session whose pairing completed closes a window. -/
structure Task.ClosesPaired (task : Task Id) : Prop where
  completes : task.Completes
  holding : .closeUnlessPersistent ∈ task.todo → ∃ conn, task.wait = .holding conn

/-- No call pushes the closing of the window in front of the rest. -/
theorem Call.Pushes.not_close {call c : Call Id} (h : call.Pushes n fresh c) :
    c ≠ .closeUnlessPersistent := by
  cases h with
  | registered conn isOpen c h =>
      simp only [registerInbound, setSession, List.mem_cons, List.not_mem_nil, or_false] at h
      rcases h with rfl | rfl | rfl | rfl <;> simp
  | unpairedKept op cont c h | unpaired op base cont c h =>
      rintro rfl
      cases h
  | _ => simp

omit [EndpointKeys Id] in
/-- No new task closes a window without having paired. -/
theorem NewTask.closesPaired [EndpointKeys Id] (h : NewTask task) : task.ClosesPaired := by
  refine ⟨h.completes, fun hMem => ?_⟩
  cases List.all_eq_true.mp h.isFirst.1 _ hMem

variable [DecidableEq Id]

/-- One turn leaves the closing of a window to completed pairings. -/
theorem Task.ClosesPaired.of_turn (hTask : task.ClosesPaired)
    (h : task.turn n self fresh input = some (n', task', spawned)) : task'.ClosesPaired := by
  refine ⟨hTask.completes.of_turn h, fun hMem => ?_⟩
  rcases Task.turn_eq_some h with ⟨_, _, _, rfl, _⟩ | ⟨_, _, _, hNext⟩ |
    ⟨call, rest, hTodo, hExec⟩
  · cases hMem
  · cases List.all_eq_true.mp (Wait.resume_kind hNext).1 _ hMem
  · have hMoves := Call.exec_moves hExec
    rcases hMoves.pushed with hNone | ⟨conn, _, _, _, _, _, rfl⟩ | ⟨pushed, hNext, hPushed⟩
    · rw [hNone] at hMem
      cases hMem
    · exact ⟨conn, rfl⟩
    · rw [hNext] at hMem
      rcases List.mem_append.mp hMem with hNew | hOld
      · exact absurd rfl (hPushed _ hNew).not_close
      · obtain ⟨conn, hWait⟩ := hTask.holding (hTodo ▸ List.mem_cons_of_mem call hOld)
        rw [hWait] at hMoves
        exact ⟨conn, (Completing.moves (hTodo ▸ hTask.completes conn hWait) hMoves).1⟩

/-- One step leaves the closing of a window to completed pairings. -/
theorem closesPaired_of_step {c d : NodeConfig Id} {l : NodeLabel Id}
    (hAll : c.All fun _ task => task.ClosesPaired)
    (hNext : AltSendme.step c l = some d) : d.All fun _ task => task.ClosesPaired :=
  step_all hAll hNext (fun _ _ hNew => hNew.closesPaired)
    (fun _ _ _ _ _ _ _ _ hInv hTurn => hInv.of_turn hTurn)
    (fun _ _ _ _ _ _ _ _ _ _ _ _ _ hInv => hInv)

/-- In every run only sessions whose pairing completed close a window. -/
theorem closesPaired_of_run {restart : Restart Id} {file : List PairedDevice}
    {ls : List (NodeLabel Id)} {c : NodeConfig Id}
    (hRun : exec AltSendme.step (started restart file) ls = some c) :
    c.All fun _ task => task.ClosesPaired := by
  have hStart : (started restart file).All fun _ (task : Task Id) => task.ClosesPaired :=
    fun t task hTask => (started_new hTask).closesPaired
  exact Execution.exec_invariant (fun _ _ _ hAll hStep => closesPaired_of_step hAll hStep)
    hRun hStart

/-- A completed pairing goes on as one until it returns. -/
theorem Task.ClosesPaired.isHolding_of_exec {call : Call Id} {rest : List (Call Id)}
    (hTask : task.ClosesPaired) (hTodo : task.todo = call :: rest)
    (h : call.exec n fresh task.wait rest input = some (n', task', spawned))
    (hHolding : task.wait.isHolding = true) : task'.wait.isHolding = true := by
  obtain ⟨conn, hWait⟩ := Wait.isHolding_iff.mp hHolding
  have hMoves := Call.exec_moves h
  rw [hWait] at hMoves
  rw [(Completing.moves (hTodo ▸ hTask.completes conn hWait) hMoves).1]
  rfl

omit [EndpointKeys Id] [DecidableEq Id] in
/-- What a completed pairing writes. -/
theorem Task.ClosesPaired.sets_of_holding {call : Call Id} {rest : List (Call Id)}
    (hTask : task.ClosesPaired) (hHolding : task.wait.isHolding = true)
    (hTodo : task.todo = call :: rest) (hSets : call.sets = some (flag, value)) :
    call = .setAccessOpen false ∧ flag = .access := by
  obtain ⟨conn, hWait⟩ := Wait.isHolding_iff.mp hHolding
  have hCompleting := hTask.completes conn hWait
  rw [hTodo] at hCompleting
  cases hCompleting <;> cases hSets
  exact ⟨rfl, rfl⟩

/-- Where a call that writes a flag, or spawns an expiry, comes from. -/
theorem Task.loud_of_turn {call : Call Id} (hTask : task.ClosesPaired)
    (hAborts : self ∈ n.aborted → task.wait = .sleeping → input = .cancelled)
    (h : task.turn n self fresh input = some (n', task', spawned))
    (hHolding : task'.wait.isHolding = false) (hMem : call ∈ task'.todo)
    (hLoud : call.leavesWindow = false) :
    (call ∈ task.todo ∧ task.wait.isHolding = false) ∨
      (task.wait = .sleeping ∧ self ∉ n.aborted ∧ call ≠ .spawnExpireTask ∧
        ∃ flag, call.sets = some (flag, false)) := by
  rcases Task.turn_eq_some h with ⟨_, _, _, rfl, _⟩ | ⟨_, _, _, hNext⟩ |
    ⟨first, rest, hTodo, hExec⟩
  · cases hMem
  · by_cases hAsleep : task.wait = .sleeping
    · right
      rw [hAsleep] at hNext
      cases Wait.resume_answers hNext with
      | expired now =>
          refine ⟨hAsleep, fun hAborted => (nomatch hAborts hAborted hAsleep), ?_⟩
          simp only [List.mem_cons, List.not_mem_nil, or_false] at hMem
          rcases hMem with rfl | rfl | rfl | rfl
          · exact ⟨nofun, .hostOpen, rfl⟩
          · exact ⟨nofun, .persistent, rfl⟩
          · exact ⟨nofun, .access, rfl⟩
          · cases hLoud
      | ended => cases hMem
    · have hLeaves :=
        List.all_eq_true.mp ((Wait.resume_answers hNext).leavesWindow hAsleep) call hMem
      rw [hLoud] at hLeaves
      cases hLeaves
  · have hOld : task.wait.isHolding = false := by
      cases hWas : task.wait.isHolding with
      | false => rfl
      | true =>
          rw [hTask.isHolding_of_exec hTodo hExec hWas] at hHolding
          cases hHolding
    rcases (Call.exec_moves hExec).pushed with hNone | ⟨_, _, _, _, _, _, rfl⟩ |
      ⟨pushed, hNext, hPushed⟩
    · rw [hNone] at hMem
      cases hMem
    · cases hHolding
    · rw [hNext] at hMem
      rcases List.mem_append.mp hMem with hNew | hRest
      · have hFirst : first ≠ .closeUnlessPersistent := by
          rintro rfl
          obtain ⟨conn, hWait⟩ := hTask.holding (hTodo ▸ List.mem_cons_self)
          rw [hWait] at hOld
          cases hOld
        rw [(hPushed call hNew).leavesWindow hFirst] at hLoud
        cases hLoud
      · exact Or.inl ⟨hTodo ▸ List.mem_cons_of_mem first hRest, hOld⟩

/-- No task falls asleep. -/
theorem Task.asleep_of_turn (h : task.turn n self fresh input = some (n', task', spawned))
    (hAsleep : task'.wait = .sleeping) : task.wait = .sleeping := by
  rcases Task.turn_eq_some h with ⟨_, _, _, rfl, _⟩ | ⟨_, _, _, hNext⟩ |
    ⟨call, rest, hTodo, hExec⟩
  · cases hAsleep
  · obtain ⟨-, hKind | ⟨ok, hReturned⟩⟩ := Wait.resume_kind hNext
    · rw [hAsleep] at hKind
      cases hWait : task.wait with
      | sleeping => rfl
      | supervising =>
          rw [hWait] at hNext
          cases Wait.resume_answers hNext <;> cases hAsleep
      | rebuilding relayMode =>
          rw [hWait] at hNext
          cases Wait.resume_answers hNext <;> cases hAsleep
      | _ =>
          rw [hWait] at hKind
          cases hKind
    · rw [hReturned] at hAsleep
      cases hAsleep
  · rcases (Call.exec_moves hExec).nextWait with hSame | ⟨_, rfl⟩ | ⟨_, _, _, _, hNext⟩ |
      ⟨_, _, _, hNext⟩ | ⟨_, _, _, hNext | ⟨_, hNext⟩⟩ | ⟨_, _, _, hNext⟩
    · rw [← hSame, hAsleep]
    · cases hAsleep
    all_goals
      rw [hNext] at hAsleep
      cases hAsleep

omit [EndpointKeys Id] [DecidableEq Id] in
theorem Call.leavesWindow_eq_false_of_sets {call : Call Id} {set : WindowFlag × Bool}
    (h : call.sets = some set) : call.leavesWindow = false := by
  cases hLeaves : call.leavesWindow with
  | false => rfl
  | true =>
      rw [(Call.not_sets_of_leavesWindow hLeaves).1] at h
      cases h

/-- A task that cannot undo the flag stays one, as far as an abort reaches a sleeping
expiry before its next step. -/
theorem Task.not_mayUndo_of_turn (hTask : task.ClosesPaired)
    (hAborts : self ∈ n.aborted → task.wait = .sleeping → input = .cancelled)
    (h : task.turn n self fresh input = some (n', task', spawned))
    (hNot : ¬ task.MayUndo n.aborted flag value self) :
    ¬ task'.MayUndo n'.aborted flag value self := by
  rintro (⟨hHolding, call, hMem, hSets⟩ | ⟨rfl, ⟨hHolding, hMem⟩ | ⟨hAsleep, hAlive⟩⟩)
  · rcases Task.loud_of_turn hTask hAborts h hHolding hMem
      (Call.leavesWindow_eq_false_of_sets hSets) with
      ⟨hOld, hWas⟩ | ⟨hAsleep, hAlive, _, _, hFalse⟩
    · exact hNot (Or.inl ⟨hWas, call, hOld, hSets⟩)
    · rw [hSets, Option.some.injEq, Prod.mk.injEq, Bool.not_eq_false'] at hFalse
      exact hNot (Or.inr ⟨hFalse.2, Or.inr ⟨hAsleep, hAlive⟩⟩)
  · rcases Task.loud_of_turn hTask hAborts h hHolding hMem rfl with ⟨hOld, hWas⟩ |
      ⟨_, _, hOther, _⟩
    · exact hNot (Or.inr ⟨rfl, Or.inl ⟨hWas, hOld⟩⟩)
    · exact hOther rfl
  · exact hNot (Or.inr ⟨rfl, Or.inr ⟨Task.asleep_of_turn h hAsleep,
      fun hAborted => hAlive (Task.aborted_of_turn h hAborted)⟩⟩)

omit [EndpointKeys Id] [DecidableEq Id] in
/-- More aborts only take tasks away that could undo a flag. -/
theorem Task.MayUndo.of_aborted {aborted more : List Nat} {handle : Nat}
    (hMore : aborted ⊆ more) (h : task.MayUndo more flag value handle) :
    task.MayUndo aborted flag value handle :=
  h.imp_right fun hTrue => ⟨hTrue.1, hTrue.2.imp_right fun hAsleep =>
    ⟨hAsleep.1, fun hAborted => hAsleep.2 (hMore hAborted)⟩⟩

/-- What a task spawns undoes nothing that the task itself could not. -/
theorem Task.spawned_not_mayUndo {handle : Nat} {new : Task Id} {aborted : List Nat}
    (hTask : task.ClosesPaired)
    (h : task.turn n self fresh input = some (n', task', spawned)) (hNew : new ∈ spawned)
    (hNot : ¬ task.MayUndo n.aborted flag value self) :
    ¬ new.MayUndo aborted flag value handle := by
  rcases Task.spawned_cases h hNew with ⟨rfl, rest, hTodo⟩ | ⟨endpointId, relayUrl, rfl⟩
  · rintro (⟨_, call, hMem, _⟩ | ⟨rfl, _⟩)
    · cases hMem
    · refine hNot (Or.inr ⟨rfl, Or.inl ⟨?_, hTodo ▸ List.mem_cons_self⟩⟩)
      cases hWait : task.wait with
      | holding conn =>
          have hCompleting := hTask.completes conn hWait
          rw [hTodo] at hCompleting
          cases hCompleting
      | _ => rfl
  · rintro (⟨_, call, hMem, hSets⟩ | ⟨_, ⟨_, hMem⟩ | ⟨hAsleep, _⟩⟩)
    · obtain rfl := List.mem_singleton.mp hMem
      cases hSets
    · cases List.mem_singleton.mp hMem
    · cases hAsleep

end Others

section Starter
variable [EndpointKeys Id]

/-- A `start_pairing_host` under way or returned, and the expiry task it spawned. -/
inductive Starting (ttlSecs : Option UInt64) : Option Nat → Task Id → Prop where
  | going (k : Nat) (hStage : k ≤ 7) :
      Starting ttlSecs none ⟨(startPairingHost ttlSecs).drop k, .returned true⟩
  | putting (handle : Nat) :
      Starting ttlSecs (some handle) ⟨[.putExpireTask handle], .returned true⟩
  | returned (handle : Nat) : Starting ttlSecs (some handle) (Task.returned true)

/-- What an expiry task does once its sleep is over. -/
def expiryCalls : List (Call Id) :=
  [.setPairingHostOpen false, .setPairingHostPersistent false, .setAccessOpen false,
    .emit .pairingHostExpired]

/-- An expiry task past its sleep, or ended. -/
def Expiring (task : Task Id) : Prop := ∃ k ok, task = ⟨expiryCalls.drop k, .returned ok⟩

variable [DecidableEq Id] {n n' : Node Id} {self fresh : Nat} {task task' : Task Id}
  {input : Input} {spawned : List (Task Id)} {ttlSecs : Option UInt64} {own : Option Nat}

/-- One turn of a start: a call of its list, the last write of a flag being the one that
counts, or the spawn of its expiry. -/
inductive StartTurn (ttlSecs : Option UInt64) (n' : Node Id) (fresh : Nat) (task task' : Task Id) :
    Option Nat → List (Task Id) → Prop where
  | aborted (own : Option Nat) (hEnd : task' = Task.returned false) :
      StartTurn ttlSecs n' fresh task task' own []
  | called (own : Option Nat) (call : Call Id) (hTodo : task.todo = call :: task'.todo)
      (hOther : call ≠ .spawnExpireTask) (hNext : Starting ttlSecs own task')
      (hSets : ∀ set, call.sets = some set → n'.windowFlag set.1 = set.2 ∧
        (FlagSettled set.1 task'.todo → set.2 = startSets ttlSecs set.1)) :
      StartTurn ttlSecs n' fresh task task' own []
  | spawned (hTodo : task.todo = [.spawnExpireTask])
      (hNext : task' = ⟨[.putExpireTask fresh], .returned true⟩) :
      StartTurn ttlSecs n' fresh task task' none [⟨[], .sleeping⟩]

/-- One turn of the opening command sets a flag, begins the expiry or is over. -/
theorem Starting.of_turn (hTask : Starting ttlSecs own task)
    (h : task.turn n self fresh input = some (n', task', spawned)) :
    StartTurn ttlSecs n' fresh task task' own spawned := by
  rcases Task.turn_eq_some h with ⟨_, _, _, rfl, rfl⟩ | ⟨hNone, _, _, hNext⟩ |
    ⟨call, rest, hTodo, hExec⟩
  · exact .aborted own rfl
  · cases hTask <;> cases input <;> cases hNext
  · cases hTask with
    | going k hStage =>
        have hNext (hLess : k + 1 ≤ 7) : Starting ttlSecs none
            (⟨(startPairingHost ttlSecs).drop (k + 1), .returned true⟩ : Task Id) :=
          .going (k + 1) hLess
        -- a write before the last one of its flag leaves the flag unsettled
        have hEarly {set : WindowFlag × Bool} (later : Call Id) {todo : List (Call Id)}
            (hMem : later ∈ todo) (hFlag : later.sets.map (·.1) = some set.1)
            (hSettled : FlagSettled set.1 todo) : set.2 = startSets ttlSecs set.1 :=
          absurd hFlag (hSettled later hMem)
        have hCases : k = 0 ∨ k = 1 ∨ k = 2 ∨ k = 3 ∨ k = 4 ∨ k = 5 ∨ k = 6 ∨ k = 7 := by omega
        rcases hCases with rfl | rfl | rfl | rfl | rfl | rfl | rfl | rfl
        · cases hTodo
          cases input <;> cases hExec
          exact .called none _ rfl nofun (hNext (by decide)) nofun
        · cases hTodo
          cases input <;> cases hExec
          refine .called none _ rfl nofun (hNext (by decide)) ?_
          rintro _ ⟨⟩
          exact ⟨rfl, hEarly (.setPairingHostPersistent (pairingHostIsPersistent ttlSecs))
            (by simp) rfl⟩
        · cases hTodo
          cases input <;> cases hExec
          refine .called none _ rfl nofun (hNext (by decide)) ?_
          rintro _ ⟨⟩
          exact ⟨rfl, hEarly (.setPairingHostOpen true)
            (by simp) rfl⟩
        · cases hTodo
          cases input <;> cases hExec
          refine .called none _ rfl nofun (hNext (by decide)) ?_
          rintro _ ⟨⟩
          exact ⟨rfl, hEarly (.setAccessOpen true)
            (by simp) rfl⟩
        · cases hTodo
          cases input <;> cases hExec
          refine .called none _ rfl nofun (hNext (by decide)) ?_
          rintro _ ⟨⟩
          exact ⟨rfl, fun _ => rfl⟩
        · cases hTodo
          cases input <;> cases hExec
          refine .called none _ rfl nofun (hNext (by decide)) ?_
          rintro _ ⟨⟩
          exact ⟨rfl, fun _ => rfl⟩
        · cases hTodo
          cases input <;> cases hExec
          refine .called none _ rfl nofun (hNext (by decide)) ?_
          rintro _ ⟨⟩
          exact ⟨rfl, fun _ => rfl⟩
        · cases ttlSecs with
          | none => cases hTodo
          | some ttl =>
              cases hTodo
              cases input <;> cases hExec
              exact .spawned rfl rfl
    | putting handle =>
        cases hTodo
        cases input <;> cases hExec
        exact .called _ _ rfl nofun (.returned handle) nofun
    | returned => cases hTodo

/-- A task that has returned has only an abort left. -/
theorem Task.ended_of_turn {ok : Bool}
    (h : (Task.returned ok : Task Id).turn n self fresh input = some (n', task', spawned)) :
    task' = Task.returned false := by
  rcases Task.turn_eq_some h with ⟨_, _, _, hEnd, _⟩ | ⟨_, _, _, hNext⟩ | ⟨_, _, hTodo, _⟩
  · exact hEnd
  · cases input <;> cases hNext
  · cases hTodo

/-- An expiry stays one over its turns, and starts nothing. -/
theorem Expiring.of_turn (hTask : task = ⟨[], .sleeping⟩ ∨ Expiring task)
    (h : task.turn n self fresh input = some (n', task', spawned)) :
    Expiring task' ∧ spawned = [] := by
  have hOver (ok : Bool) : Expiring (Task.returned ok : Task Id) := ⟨4, ok, rfl⟩
  rcases hTask with rfl | ⟨k, ok, rfl⟩
  · rcases Task.turn_eq_some h with ⟨_, _, _, rfl, rfl⟩ | ⟨_, _, rfl, hNext⟩ |
      ⟨call, rest, hTodo, hExec⟩
    · exact ⟨hOver false, rfl⟩
    · cases Wait.resume_answers hNext with
      | expired => exact ⟨⟨0, true, rfl⟩, rfl⟩
      | ended _ _ ok => exact ⟨hOver ok, rfl⟩
    · cases hTodo
  · rcases Task.turn_eq_some h with ⟨_, _, _, rfl, rfl⟩ | ⟨_, _, rfl, hNext⟩ |
      ⟨call, rest, hTodo, hExec⟩
    · exact ⟨hOver false, rfl⟩
    · cases input <;> cases hNext
    · have hStage : k = 0 ∨ k = 1 ∨ k = 2 ∨ k = 3 := by
        by_contra hLate
        rw [List.drop_eq_nil_of_le (by simp [expiryCalls]; omega)] at hTodo
        cases hTodo
      rcases hStage with rfl | rfl | rfl | rfl <;>
        cases hTodo <;> cases input <;> cases hExec
      · exact ⟨⟨1, ok, rfl⟩, rfl⟩
      · exact ⟨⟨2, ok, rfl⟩, rfl⟩
      · exact ⟨⟨3, ok, rfl⟩, rfl⟩
      · exact ⟨⟨4, ok, rfl⟩, rfl⟩

end Starter

section Runs

/-- `stop_pairing_host` is called by these. -/
def Command.stopsHost : Command Id → Bool
  | .startPairingHost _ | .stopPairingHost | .reconfigureRelay _ | .shutdown => true
  | _ => false

variable [EndpointKeys Id] [DecidableEq Id]

/-- Since the start `s` no other start or stop has been called, and no pairing has
completed after the start opened the gate. -/
def NothingLater (s : Nat) (c : NodeConfig Id) : NodeLabel Id → Prop
  | .call command => command.stopsHost = false
  | .turn t _ => ∀ task ∈ c.tasks[t]?, task.wait.isHolding = true →
      task.todo.head? = some (.setAccessOpen false) →
      ∃ starter ∈ c.tasks[s]?, ¬ FlagSettled .access starter.todo
  | .restart _ => False

/-- An abort takes effect where its task sleeps. -/
def AbortsAsleep (c : NodeConfig Id) : NodeLabel Id → Prop
  | .turn t input => ∀ task ∈ c.tasks[t]?, t ∈ c.shared.aborted → task.wait = .sleeping →
      input = .cancelled
  | _ => True

/-- When the start `s` writes a flag for the last time, no other task may still undo it. -/
def Unopposed (s : Nat) (c : NodeConfig Id) : NodeLabel Id → Prop
  | .turn t _ => t = s → ∀ starter ∈ c.tasks[s]?, ∀ call ∈ starter.todo.head?,
      ∀ set ∈ call.sets, FlagSettled set.1 starter.todo.tail →
        ∀ entry ∈ c.tasks.zipIdx, entry.2 ≠ s →
          ¬ entry.1.MayUndo c.shared.aborted set.1 set.2 entry.2
  | _ => True

instance (s : Nat) (c : NodeConfig Id) (l : NodeLabel Id) : Decidable (NothingLater s c l) :=
  match l with
  | .call command => inferInstanceAs (Decidable (command.stopsHost = false))
  | .turn _ _ => @Option.decidableForallMem _ _ (fun _ => inferInstance) _
  | .restart _ => .isFalse id

instance (c : NodeConfig Id) (l : NodeLabel Id) : Decidable (AbortsAsleep c l) :=
  match l with
  | .turn _ _ => @Option.decidableForallMem _ _ (fun _ => inferInstance) _
  | .call _ | .restart _ => .isTrue trivial

instance (s : Nat) (c : NodeConfig Id) (l : NodeLabel Id) : Decidable (Unopposed s c l) :=
  match l with
  | .turn t _ => inferInstanceAs (Decidable (t = s → ∀ starter ∈ c.tasks[s]?, _))
  | .call _ | .restart _ => .isTrue trivial

/-- The expiry task that the start `s` spawns in this step. -/
def spawnsExpiry (s : Nat) (c : NodeConfig Id) : NodeLabel Id → Option (Option Nat)
  | .turn t _ =>
      if t = s ∧ nextCall c s = some .spawnExpireTask then some (some c.tasks.length) else none
  | _ => none

/-- The expiry task that the start `s` has spawned along a run. -/
def ownExpiry (s : Nat) (c : NodeConfig Id) (ls : List (NodeLabel Id)) : Option Nat :=
  lastVerdict step (spawnsExpiry s) none c ls

/-- The window of a start under way or returned: each flag it is done with is as it
left it, unless its own expiry is awake, and no other task may undo it. -/
structure WindowKept (ttlSecs : Option UInt64) (s : Nat) (own : Option Nat) (c : NodeConfig Id) :
    Prop where
  starter : ∃ task, c.tasks[s]? = some task ∧ Starting ttlSecs own task
  expiry : ∀ handle, own = some handle → handle ≠ s ∧ ∃ task, c.tasks[handle]? = some task ∧
    (task = ⟨[], .sleeping⟩ ∨ Expiring task)
  kept : ∀ task flag, c.tasks[s]? = some task → FlagSettled flag task.todo →
    (∃ handle task, own = some handle ∧ c.tasks[handle]? = some task ∧ Expiring task) ∨
      c.shared.windowFlag flag = startSets ttlSecs flag
  unopposed : ∀ task flag, c.tasks[s]? = some task → FlagSettled flag task.todo →
    ∀ u other, c.tasks[u]? = some other → u ≠ s → own ≠ some u →
      ¬ other.MayUndo c.shared.aborted flag (startSets ttlSecs flag) u

variable {n n' : Node Id} {t s : Nat} {c d : NodeConfig Id} {task task' : Task Id}
  {input : Input} {spawned : List (Task Id)} {ttlSecs : Option UInt64} {own : Option Nat}

omit [EndpointKeys Id] [DecidableEq Id] in
/-- A call that sets another flag leaves this one settled. -/
theorem FlagSettled.cons {flag : WindowFlag} {call : Call Id} {rest : List (Call Id)}
    (hCall : call.sets.map (·.1) ≠ some flag) (hRest : FlagSettled flag rest) :
    FlagSettled flag (call :: rest) :=
  List.forall_mem_cons.mpr ⟨hCall, hRest⟩

/-- A call of the start. -/
theorem WindowKept.of_called {call : Call Id} (h : WindowKept ttlSecs s own c)
    (hUnopposed : Unopposed s c (.turn s input)) (hTask : c.tasks[s]? = some task)
    (hTurn : task.turn c.shared s c.tasks.length input = some (n', task', []))
    (hTodo : task.todo = call :: task'.todo) (hNext : Starting ttlSecs own task')
    (hSets : ∀ set, call.sets = some set → n'.windowFlag set.1 = set.2 ∧
      (FlagSettled set.1 task'.todo → set.2 = startSets ttlSecs set.1)) :
    WindowKept ttlSecs s own ⟨n', c.tasks.set s task' ++ []⟩ := by
  have hSelf : (c.tasks.set s task' ++ [])[s]? = some task' :=
    getElem?_turn_self (List.getElem?_eq_some_iff.mp hTask).1
  -- the call writes the flag for the last time, or the flag was settled before
  have hCases (flag : WindowFlag) (hSettled : FlagSettled flag task'.todo) :
      call.sets = some (flag, startSets ttlSecs flag) ∨
        (call.sets.map (·.1) ≠ some flag ∧ FlagSettled flag task.todo) := by
    by_cases hFlag : call.sets.map (·.1) = some flag
    · obtain ⟨set, hSet, rfl⟩ := Option.map_eq_some_iff.mp hFlag
      left
      rw [hSet, ← (hSets set hSet).2 hSettled]
    · exact Or.inr ⟨hFlag, hTodo ▸ hSettled.cons hFlag⟩
  refine ⟨⟨task', hSelf, hNext⟩, ?_, ?_, ?_⟩
  · intro handle hOwn
    obtain ⟨hNe, other, hOther, hStage⟩ := h.expiry handle hOwn
    exact ⟨hNe, other, getElem?_turn_other hNe hOther, hStage⟩
  · intro found flag hFound hSettled
    obtain rfl := Option.some.inj (hSelf.symm.trans hFound)
    rcases hCases flag hSettled with hSet | ⟨hNot, hWas⟩
    · exact Or.inr (hSets _ hSet).1
    · rcases h.kept task flag hTask hWas with ⟨handle, other, hOwn, hOther, hAwake⟩ | hSame
      · exact Or.inl ⟨handle, other, hOwn,
          getElem?_turn_other (h.expiry handle hOwn).1 hOther, hAwake⟩
      · rcases Task.windowFlag_of_turn flag hTurn with hKept | ⟨other, rest, hHead, hWrites⟩
        · exact Or.inr (hKept.trans hSame)
        · rw [hTodo, List.cons.injEq] at hHead
          exact absurd (by rw [hHead.1, hWrites]; rfl) hNot
  · intro found flag hFound hSettled u other hOther hu hOwn hUndo
    obtain rfl := Option.some.inj (hSelf.symm.trans hFound)
    rcases getElem?_after_turn hOther with ⟨rfl, _, _⟩ | ⟨_, hOld⟩ | ⟨_, hNew⟩
    · exact hu rfl
    · have hBefore := hUndo.of_aborted fun _ => Task.aborted_of_turn hTurn
      rcases hCases flag hSettled with hSet | ⟨_, hWas⟩
      · refine hUnopposed rfl task hTask call (by rw [hTodo]; rfl) _ hSet ?_ (other, u)
          (List.mk_mem_zipIdx_iff_getElem?.mpr hOld) hu hBefore
        rw [hTodo]
        exact hSettled
      · exact h.unopposed task flag hTask hWas u other hOld hu hOwn hBefore
    · cases hNew

/-- The start spawns its expiry. -/
theorem WindowKept.of_spawned (h : WindowKept ttlSecs s none c) (hTask : c.tasks[s]? = some task)
    (hTurn : task.turn c.shared s c.tasks.length input = some (n', task', [⟨[], .sleeping⟩]))
    (hTodo : task.todo = [.spawnExpireTask])
    (hNext : task' = ⟨[.putExpireTask c.tasks.length], .returned true⟩) :
    WindowKept ttlSecs s (some c.tasks.length) ⟨n', c.tasks.set s task' ++ [⟨[], .sleeping⟩]⟩ := by
  have hLength := (List.getElem?_eq_some_iff.mp hTask).1
  have hSelf : (c.tasks.set s task' ++ [⟨[], .sleeping⟩])[s]? = some task' :=
    getElem?_turn_self hLength
  have hWas (flag : WindowFlag) : FlagSettled flag task.todo := by
    rw [hTodo]
    exact FlagSettled.cons nofun nofun
  refine ⟨⟨task', hSelf, hNext ▸ .putting _⟩, ?_, ?_, ?_⟩
  · rintro handle ⟨⟩
    exact ⟨Nat.ne_of_gt hLength, ⟨[], .sleeping⟩,
      @Execution.Pool.getElem?_turn_spawned _ c.tasks [⟨[], .sleeping⟩] task' s 0, Or.inl rfl⟩
  · intro found flag _ _
    rcases h.kept task flag hTask (hWas flag) with ⟨_, _, hOwn, _⟩ | hSame
    · cases hOwn
    · rcases Task.windowFlag_of_turn flag hTurn with hKept | ⟨other, rest, hHead, hWrites⟩
      · exact Or.inr (hKept.trans hSame)
      · rw [hTodo, List.cons.injEq] at hHead
        rw [← hHead.1] at hWrites
        cases hWrites
  · intro found flag _ _ u other hOther hu hOwn hUndo
    rcases getElem?_after_turn hOther with ⟨rfl, _, _⟩ | ⟨_, hOld⟩ | ⟨hLate, _⟩
    · exact hu rfl
    · exact h.unopposed task flag hTask (hWas flag) u other hOld hu nofun
        (hUndo.of_aborted fun _ => Task.aborted_of_turn hTurn)
    · have hBound := (List.getElem?_eq_some_iff.mp hOther).1
      rw [List.length_append, List.length_set, List.length_singleton] at hBound
      exact hOwn (congrArg some (by omega))

/-- A turn of the start itself. -/
theorem WindowKept.of_own (h : WindowKept ttlSecs s own c)
    (hUnopposed : Unopposed s c (.turn s input)) (hTask : c.tasks[s]? = some task)
    (hTurn : task.turn c.shared s c.tasks.length input = some (n', task', spawned)) :
    task' = Task.returned false ∨ WindowKept ttlSecs s ((spawnsExpiry s c (.turn s input)).getD own)
      ⟨n', c.tasks.set s task' ++ spawned⟩ := by
  obtain ⟨found, hFound, hStarting⟩ := h.starter
  obtain rfl := Option.some.inj (hTask.symm.trans hFound)
  cases hStarting.of_turn hTurn with
  | aborted _ hEnd => exact Or.inl hEnd
  | called _ call hTodo hOther hNext hSets =>
      have hCall : nextCall c s = some call := nextCall_eq_some.mpr ⟨task, _, hTask, hTodo⟩
      have hJudge : spawnsExpiry s c (.turn s input) = none := by
        rw [spawnsExpiry, hCall, if_neg]
        rintro ⟨_, hSpawn⟩
        exact hOther (Option.some.inj hSpawn)
      rw [hJudge]
      exact Or.inr (h.of_called hUnopposed hTask hTurn hTodo hNext hSets)
  | spawned hTodo hNext =>
      have hCall : nextCall c s = some .spawnExpireTask :=
        nextCall_eq_some.mpr ⟨task, _, hTask, hTodo⟩
      have hJudge : spawnsExpiry s c (.turn s input) = some (some c.tasks.length) := by
        rw [spawnsExpiry, hCall, if_pos ⟨rfl, rfl⟩]
      rw [hJudge]
      exact Or.inr (h.of_spawned hTask hTurn hTodo hNext)

/-- A turn of the start's expiry. -/
theorem WindowKept.of_expiry (h : WindowKept ttlSecs s (some t) c)
    (hTask : c.tasks[t]? = some task)
    (hTurn : task.turn c.shared t c.tasks.length input = some (n', task', spawned)) :
    WindowKept ttlSecs s (some t) ⟨n', c.tasks.set t task' ++ spawned⟩ := by
  obtain ⟨hNe, found, hFound, hStage⟩ := h.expiry t rfl
  obtain rfl := Option.some.inj (hTask.symm.trans hFound)
  obtain ⟨hAwake, rfl⟩ := Expiring.of_turn hStage hTurn
  obtain ⟨starter, hStarter, hStarting⟩ := h.starter
  have hSelf : (c.tasks.set t task' ++ [])[t]? = some task' :=
    getElem?_turn_self (List.getElem?_eq_some_iff.mp hTask).1
  have hStarter' : (c.tasks.set t task' ++ [])[s]? = some starter :=
    getElem?_turn_other (Ne.symm hNe) hStarter
  refine ⟨⟨starter, hStarter', hStarting⟩, ?_, ?_, ?_⟩
  · rintro handle ⟨⟩
    exact ⟨hNe, task', hSelf, Or.inr hAwake⟩
  · intro _ _ _ _
    exact Or.inl ⟨t, task', rfl, hSelf, hAwake⟩
  · intro found flag hFound hSettled u other hOther hu hOwn hUndo
    obtain rfl := Option.some.inj (hStarter'.symm.trans hFound)
    rcases getElem?_after_turn hOther with ⟨rfl, _, _⟩ | ⟨_, hOld⟩ | ⟨_, hNew⟩
    · exact hOwn rfl
    · exact h.unopposed starter flag hStarter hSettled u other hOld hu hOwn
        (hUndo.of_aborted fun _ => Task.aborted_of_turn hTurn)
    · cases hNew

/-- A turn of another task. -/
theorem WindowKept.of_other (h : WindowKept ttlSecs s own c)
    (hPaired : task.ClosesPaired) (hLater : NothingLater s c (.turn t input))
    (hAborts : AbortsAsleep c (.turn t input)) (hOther : t ≠ s) (hOwn : own ≠ some t)
    (hTask : c.tasks[t]? = some task)
    (hTurn : task.turn c.shared t c.tasks.length input = some (n', task', spawned)) :
    WindowKept ttlSecs s own ⟨n', c.tasks.set t task' ++ spawned⟩ := by
  obtain ⟨starter, hStarter, hStarting⟩ := h.starter
  have hStarter' : (c.tasks.set t task' ++ spawned)[s]? = some starter :=
    getElem?_turn_other (Ne.symm hOther) hStarter
  have hNot (flag : WindowFlag) (hSettled : FlagSettled flag starter.todo) :=
    h.unopposed starter flag hStarter hSettled t task hTask hOther hOwn
  refine ⟨⟨starter, hStarter', hStarting⟩, ?_, ?_, ?_⟩
  · intro handle hSome
    obtain ⟨hNe, found, hFound, hStage⟩ := h.expiry handle hSome
    exact ⟨hNe, found, getElem?_turn_other (fun hSame => hOwn (hSame ▸ hSome)) hFound, hStage⟩
  · intro found flag hFound hSettled
    obtain rfl := Option.some.inj (hStarter'.symm.trans hFound)
    rcases h.kept starter flag hStarter hSettled with ⟨handle, other, hSome, hThere, hAwake⟩ | hSame
    · exact Or.inl ⟨handle, other, hSome,
        getElem?_turn_other (fun hSame => hOwn (hSame ▸ hSome)) hThere, hAwake⟩
    · right
      rcases Task.windowFlag_of_turn flag hTurn with hKept | ⟨call, rest, hTodo, hWrites⟩
      · exact hKept.trans hSame
      · by_contra hChanged
        have hSets : call.sets = some (flag, !startSets ttlSecs flag) :=
          hWrites.trans (congrArg (fun value => some (flag, value)) (Bool.eq_not.mpr hChanged))
        cases hHolding : task.wait.isHolding with
        | false =>
            exact hNot flag hSettled
              (Or.inl ⟨hHolding, call, hTodo ▸ List.mem_cons_self, hSets⟩)
        | true =>
            -- a completed pairing shuts the gate, and the start is done with it
            obtain ⟨rfl, rfl⟩ := hPaired.sets_of_holding hHolding hTodo hSets
            obtain ⟨other, hFound', hUnsettled⟩ :=
              hLater task hTask hHolding (by rw [hTodo]; rfl)
            obtain rfl := Option.some.inj (hStarter.symm.trans hFound')
            exact hUnsettled hSettled
  · intro found flag hFound hSettled u other hThere hu hOwnU hUndo
    obtain rfl := Option.some.inj (hStarter'.symm.trans hFound)
    rcases getElem?_after_turn hThere with ⟨rfl, _, rfl⟩ | ⟨_, hOld⟩ | ⟨_, hNew⟩
    · exact Task.not_mayUndo_of_turn hPaired (hAborts task hTask) hTurn (hNot flag hSettled) hUndo
    · exact h.unopposed starter flag hStarter hSettled u other hOld hu hOwnU
        (hUndo.of_aborted fun _ => Task.aborted_of_turn hTurn)
    · exact Task.spawned_not_mayUndo hPaired hTurn hNew (hNot flag hSettled) hUndo

omit [EndpointKeys Id] [DecidableEq Id] in
/-- A call that stops no window brings no task that could undo it. -/
theorem Command.Starts.not_mayUndo {command : Command Id} {aborted : List Nat} {handle : Nat}
    {flag : WindowFlag} {value : Bool} (hStarts : command.Starts task)
    (hOther : command.stopsHost = false) : ¬ task.MayUndo aborted flag value handle := by
  have hLeaves : task.todo.all Call.leavesWindow = true ∧ task.wait ≠ .sleeping := by
    cases hStarts with
    | persistentHost | timedHost | stopPairingHost | reconfigureRelay | shutdown => cases hOther
    | _ => exact ⟨rfl, nofun⟩
  rintro (⟨_, call, hMem, hSets⟩ | ⟨_, ⟨_, hMem⟩ | ⟨hAsleep, _⟩⟩)
  · rw [(Call.not_sets_of_leavesWindow (List.all_eq_true.mp hLeaves.1 call hMem)).1] at hSets
    cases hSets
  · exact (Call.not_sets_of_leavesWindow (List.all_eq_true.mp hLeaves.1 _ hMem)).2 rfl
  · exact hLeaves.2 hAsleep

/-- The start was aborted itself, or its window is kept. -/
def AbortedOrKept (ttlSecs : Option UInt64) (s : Nat) (own : Option Nat) (c : NodeConfig Id) :
    Prop :=
  c.tasks[s]? = some (Task.returned false) ∨ WindowKept ttlSecs s own c

theorem AbortedOrKept.of_step {l : NodeLabel Id} (h : AbortedOrKept ttlSecs s own c)
    (hPaired : c.All fun _ task => task.ClosesPaired) (hLater : NothingLater s c l)
    (hAborts : AbortsAsleep c l) (hUnopposed : Unopposed s c l) (hStep : step c l = some d) :
    AbortedOrKept ttlSecs s ((spawnsExpiry s c l).getD own) d := by
  cases l with
  | restart => cases hLater
  | call command =>
      obtain rfl := Option.some.inj hStep
      rcases h with hAborted | h
      · exact Or.inl (getElem?_call_old hAborted)
      · obtain ⟨starter, hStarter, hStarting⟩ := h.starter
        have hStarter' := @getElem?_call_old _ _ (nodePool.start command) _ _ hStarter
        refine Or.inr ⟨⟨starter, hStarter', hStarting⟩, ?_, ?_, ?_⟩
        · intro handle hSome
          obtain ⟨hNe, found, hFound, hStage⟩ := h.expiry handle hSome
          exact ⟨hNe, found, getElem?_call_old hFound, hStage⟩
        · intro found flag hFound hSettled
          obtain rfl := Option.some.inj (hStarter'.symm.trans hFound)
          rcases h.kept starter flag hStarter hSettled with ⟨handle, other, hSome, hThere, hAwake⟩ |
            hSame
          · exact Or.inl ⟨handle, other, hSome, getElem?_call_old hThere, hAwake⟩
          · exact Or.inr hSame
        · intro found flag hFound hSettled u other hThere hu hOwn
          obtain rfl := Option.some.inj (hStarter'.symm.trans hFound)
          rcases getElem?_after_call hThere with hOld | ⟨_, rfl⟩
          · exact h.unopposed starter flag hStarter hSettled u other hOld hu hOwn
          · exact command.starts.not_mayUndo hLater
  | turn t input =>
      obtain ⟨task, n', task', spawned, hTask, hTurn, rfl⟩ :=
        (Execution.Pool.next_turn_eq_some _).mp hStep
      rcases h with hAborted | h
      · by_cases hSame : t = s
        · subst hSame
          obtain rfl := Option.some.inj (hTask.symm.trans hAborted)
          have hEnd : task' = Task.returned false :=
            @Task.ended_of_turn _ _ _ _ _ _ c.tasks.length _ _ _ false hTurn
          exact Or.inl (hEnd ▸ getElem?_turn_self (List.getElem?_eq_some_iff.mp hTask).1)
        · exact Or.inl (getElem?_turn_other (Ne.symm hSame) hAborted)
      · by_cases hSame : t = s
        · subst hSame
          refine (h.of_own hUnopposed hTask hTurn).imp_left ?_
          rintro rfl
          exact getElem?_turn_self (List.getElem?_eq_some_iff.mp hTask).1
        · have hJudge : spawnsExpiry s c (.turn t input) = none :=
            if_neg fun hBoth => hSame hBoth.1
          rw [hJudge]
          by_cases hOwn : own = some t
          · subst hOwn
            exact Or.inr (h.of_expiry hTask hTurn)
          · exact Or.inr (h.of_other (hPaired t task hTask) hLater hAborts hSame hOwn hTask hTurn)

/-- After a start has returned, until its own time is up, another start or stop is called
or a pairing completes, the flags are as it set them: if whenever it wrote one for the
last time no earlier expiry, start or stop could still undo it. -/
theorem window_outlives_old_expiry {restart : Restart Id} {file : List PairedDevice}
    {before rest : List (NodeLabel Id)} {m : NodeConfig Id}
    (hReach : exec step (started restart file) before = some c)
    (hCall : step c (.call (.startPairingHost ttlSecs)) = some m)
    (hRun : exec step m rest = some d)
    (hLater : Meets step (NothingLater c.tasks.length) m rest)
    (hAborts : Meets step AbortsAsleep m rest)
    (hUnopposed : Meets step (Unopposed c.tasks.length) m rest)
    (hReturned : d.tasks[c.tasks.length]? = some (Task.returned true))
    (hTtl : ∀ handle, ownExpiry c.tasks.length m rest = some handle →
      d.tasks[handle]? = some ⟨[], .sleeping⟩) :
    d.shared.access.pairingHostOpen = true ∧ d.shared.pairingHostOpen = true ∧
      d.shared.pairingHostPersistent = pairingHostIsPersistent ttlSecs := by
  have hPaired := closesPaired_of_step (closesPaired_of_run hReach) hCall
  have hStart : AbortedOrKept ttlSecs c.tasks.length none m := by
    obtain rfl := Option.some.inj hCall
    have hStarter : (c.tasks ++ [⟨startPairingHost ttlSecs, .returned true⟩])[c.tasks.length]? =
        some ⟨startPairingHost ttlSecs, .returned true⟩ := List.getElem?_concat_length
    -- the start has every flag still to write
    have hUnsettled (flag : WindowFlag) :
        ¬ FlagSettled flag (startPairingHost ttlSecs : List (Call Id)) := by
      cases flag with
      | hostOpen => exact fun h => h (.setPairingHostOpen true) (by simp [startPairingHost]) rfl
      | persistent =>
          exact fun h => h (.setPairingHostPersistent (pairingHostIsPersistent ttlSecs))
            (by simp [startPairingHost]) rfl
      | access => exact fun h => h (.setAccessOpen true) (by simp [startPairingHost]) rfl
    refine Or.inr ⟨⟨_, hStarter, .going 0 (by decide)⟩, by simp, ?_, ?_⟩
    · intro task flag hTask hSettled
      obtain rfl := Option.some.inj (hStarter.symm.trans hTask)
      exact absurd hSettled (hUnsettled flag)
    · intro task flag hTask hSettled
      obtain rfl := Option.some.inj (hStarter.symm.trans hTask)
      exact absurd hSettled (hUnsettled flag)
  have hKept : AbortedOrKept ttlSecs c.tasks.length (ownExpiry c.tasks.length m rest) d ∧
      d.All fun _ task => task.ClosesPaired := by
    refine @Meets.history _ _ step _ (fun ls e =>
      AbortedOrKept ttlSecs c.tasks.length (ownExpiry c.tasks.length m ls) e ∧
        e.All fun _ task => task.ClosesPaired) m ⟨hStart, hPaired⟩ ?_ rest d
      ((hLater.and hAborts).and hUnopposed) hRun
    rintro ls e l f hPrior ⟨hKept, hAll⟩ ⟨⟨hLater, hAborts⟩, hUnopposed⟩ hStep
    refine ⟨?_, closesPaired_of_step hAll hStep⟩
    rw [ownExpiry, lastVerdict_concat hPrior hStep]
    exact hKept.of_step hAll hLater hAborts hUnopposed hStep
  rcases hKept.1 with hAborted | hWindow
  · cases hReturned.symm.trans hAborted
  · have hFlag (flag : WindowFlag) : d.shared.windowFlag flag = startSets ttlSecs flag := by
      have hSettled : FlagSettled flag (Task.returned true : Task Id).todo :=
        fun _ hMem => absurd hMem List.not_mem_nil
      rcases hWindow.kept _ flag hReturned hSettled with
        ⟨handle, task, hOwn, hTask, hAwake⟩ | hSame
      · obtain rfl := Option.some.inj ((hTtl handle hOwn).symm.trans hTask)
        obtain ⟨_, _, hNot⟩ := hAwake
        cases congrArg Task.wait hNot
      · exact hSame
    exact ⟨hFlag .access, hFlag .hostOpen, hFlag .persistent⟩

end Runs

section Devices

/-- A window of a minute has been opened; its expiry sleeps. -/
def minuteWindow : List (NodeLabel HexId) := .call (.startPairingHost (some 60)) :: goes 1 9

/-- A window without an end replaces it in time. -/
def replacedInTime : List (NodeLabel HexId) := goes 3 7 ++ [.turn 2 .cancelled]

/-- The first window's expiry is past its sleep when the second start aborts it. -/
def replacedLate : List (NodeLabel HexId) := .turn 2 (.go 0) :: (goes 3 7 ++ goes 2 3)

theorem window_outlives_old_expiry_replaced : ∃ c m d,
    exec step (started (.onIdentity (desktop alice)) []) minuteWindow = some c ∧
      step c (.call (.startPairingHost none)) = some m ∧ exec step m replacedInTime = some d ∧
      d.shared.access.pairingHostOpen = true ∧ d.shared.pairingHostOpen = true ∧
      d.shared.pairingHostPersistent = pairingHostIsPersistent none := by
  have hRuns : ∃ c, exec step (started (.onIdentity (desktop alice)) []) minuteWindow = some c ∧
      ∃ m, step c (.call (.startPairingHost none)) = some m ∧
        ∃ d, exec step m replacedInTime = some d ∧
          Meets step (NothingLater c.tasks.length) m replacedInTime ∧
          Meets step AbortsAsleep m replacedInTime ∧
          Meets step (Unopposed c.tasks.length) m replacedInTime ∧
          d.tasks[c.tasks.length]? = some (Task.returned true) ∧
          ownExpiry c.tasks.length m replacedInTime = none := by
    decide
  obtain ⟨c, hReach, m, hCall, d, hRun, hLater, hAborts, hUnopposed, hReturned, hNone⟩ := hRuns
  refine ⟨c, m, d, hReach, hCall, hRun, ?_⟩
  refine window_outlives_old_expiry hReach hCall hRun hLater hAborts hUnopposed hReturned ?_
  rw [hNone]
  nofun

/-- The old expiry shuts the new window after its start has returned. -/
theorem old_expiry_shuts_new_window : ∃ c,
    exec step (started (.onIdentity (desktop alice)) []) minuteWindow = some c ∧
      ∃ m, step c (.call (.startPairingHost none)) = some m ∧
        ∃ d, exec step m replacedLate = some d ∧
          Meets step (NothingLater c.tasks.length) m replacedLate ∧
          Meets step AbortsAsleep m replacedLate ∧
          d.tasks[c.tasks.length]? = some (Task.returned true) ∧
          ownExpiry c.tasks.length m replacedLate = none ∧
          d.shared.access.pairingHostOpen = false ∧ d.shared.pairingHostOpen = false ∧
          d.shared.pairingHostPersistent = false := by
  decide

end Devices
end AltSendme
