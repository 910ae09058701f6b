import AltSendme.Native.Turn

/-! Which tasks an `abort` can reach. A node keeps the handles of connect loops
and of the expiry of its window, and no others: a session, a join and a command
run to their own end. -/
namespace AltSendme

variable {Id : Type}
open Execution (exec exec_invariant)
open Execution.Pool (getElem?_call_old getElem?_turn_self getElem?_turn_other
  getElem?_turn_spawned)

namespace Node

/-- Every handle the node holds or has aborted. -/
def handles (n : Node Id) : List Nat :=
  n.aborted ++ n.connectTasks.map (·.2) ++ n.pairingExpireTask.toList

theorem mem_handles {n : Node Id} {h : Nat} :
    h ∈ n.handles ↔ h ∈ n.aborted ∨ h ∈ n.connectTasks.map (·.2) ∨
      n.pairingExpireTask = some h := by
  simp only [handles, List.mem_append, Option.mem_toList, or_assoc]

/-- The handles given out while `refresh` walks its devices count up from
`fresh`, one for each loop spawned. -/
theorem mem_foldl_spawnConnectTask {fresh : Nat} {active : List PairedDevice}
    {acc : List (String × Nat) × List PairedDevice} {entry : String × Nat}
    (h : entry ∈ (active.foldl (spawnConnectTask fresh) acc).1) :
    entry ∈ acc.1 ∨ (fresh + acc.2.length ≤ entry.2 ∧
      entry.2 < fresh + (active.foldl (spawnConnectTask fresh) acc).2.length) := by
  have hGrows : ∀ (devices : List PairedDevice) (acc : List (String × Nat) × List PairedDevice),
      acc.2.length ≤ (devices.foldl (spawnConnectTask fresh) acc).2.length := by
    intro devices
    induction devices with
    | nil => intro acc; exact Nat.le_refl _
    | cons d rest ih =>
        intro acc
        refine Nat.le_trans ?_ (ih (spawnConnectTask fresh acc d))
        unfold spawnConnectTask
        dsimp only
        split
        · exact Nat.le_refl _
        · simp
  induction active generalizing acc with
  | nil => exact Or.inl h
  | cons d rest ih =>
      rw [List.foldl_cons] at h ⊢
      have hMore := hGrows rest (spawnConnectTask fresh acc d)
      rcases ih h with hOld | ⟨hLow, hHigh⟩
      · unfold spawnConnectTask at hOld hMore ⊢
        dsimp only at hOld hMore ⊢
        split at hOld
        · exact Or.inl hOld
        · next hMissing =>
            rw [if_neg hMissing] at hMore ⊢
            rcases List.mem_append.mp hOld with hMem | hNew
            · exact Or.inl hMem
            · obtain rfl := List.mem_singleton.mp hNew
              refine Or.inr ⟨Nat.le_refl _, ?_⟩
              simp only [List.length_append, List.length_singleton] at hMore ⊢
              omega
      · refine Or.inr ⟨?_, hHigh⟩
        have hOne := hGrows [d] acc
        simp only [List.foldl_cons, List.foldl_nil] at hOne
        omega

/-- A refresh adds only handles of the loops it spawns. -/
theorem mem_handles_refreshTasks {n : Node Id} {fresh h : Nat} {active : List PairedDevice}
    (hMem : h ∈ (n.refreshTasks fresh active).1.handles) :
    h ∈ n.handles ∨
      ∃ k, h = fresh + k ∧ k < (n.refreshTasks fresh active).2.length := by
  rw [mem_handles] at hMem ⊢
  rcases hMem with hAborted | hTask | hExpire
  · rcases List.mem_append.mp hAborted with hOld | hDropped
    · exact Or.inl (Or.inl hOld)
    · obtain ⟨entry, hEntry, rfl⟩ := List.mem_map.mp hDropped
      exact Or.inl (Or.inr (Or.inl (List.mem_map_of_mem (List.mem_of_mem_filter hEntry))))
  · obtain ⟨entry, hEntry, rfl⟩ := List.mem_map.mp hTask
    rcases mem_foldl_spawnConnectTask hEntry with hOld | ⟨hLow, hHigh⟩
    · exact Or.inl (Or.inr (Or.inl (List.mem_map_of_mem (List.mem_of_mem_filter hOld))))
    · simp only [List.length_nil, Nat.add_zero] at hLow
      refine Or.inr ⟨entry.2 - fresh, by omega, ?_⟩
      change entry.2 - fresh < (active.foldl (spawnConnectTask fresh) _).2.length
      omega
  · exact Or.inl (Or.inr (Or.inr hExpire))

end Node

/-- Calls that read the gate of an inbound connection. -/
def Call.isGate : Call Id → Bool
  | .readPairingHostOpen _ | .readAllowed _ _ => true
  | _ => false

/-- A task that is a connect loop or a timer, and stays one. -/
def Task.IsBackground (task : Task Id) : Prop :=
  (task.wait.kind = .connectLoop ∨ task.wait.kind = .background ∨ task.wait.kind = .over) ∧
    ∀ call ∈ task.todo, call.isGate = false

theorem Task.isBackground_returned (ok : Bool) : (Task.returned ok : Task Id).IsBackground :=
  ⟨Or.inr (Or.inr rfl), by simp [Task.returned]⟩

variable [EndpointKeys Id]

theorem Call.Pushes.isGate {n : Node Id} {fresh : Nat} {call c : Call Id}
    (h : call.Pushes n fresh c) (hCall : call.isGate = false) : c.isGate = false := by
  cases h with
  | gate | registered => cases hCall
  | unpairedKept op cont c h | unpaired op base cont c h =>
      cases c <;> first | rfl | cases h
  | _ => rfl

variable [DecidableEq Id]

theorem Task.IsBackground.of_turn {n n' : Node Id} {self fresh : Nat} {task task' : Task Id}
    {input : Input} {spawned : List (Task Id)} (hTask : task.IsBackground)
    (h : task.turn n self fresh input = some (n', task', spawned)) : task'.IsBackground := by
  obtain ⟨hKind, hCalls⟩ := hTask
  rcases Task.turn_eq_some h with ⟨_, _, _, rfl, _⟩ | ⟨_, _, _, hNext⟩ |
    ⟨call, rest, hTodo, hExec⟩
  · exact Task.isBackground_returned false
  · obtain ⟨hAnswers, hSame⟩ := Wait.resume_kind hNext
    refine ⟨?_, ?_⟩
    · rcases hSame with hSame | ⟨ok, hReturned⟩
      · rwa [hSame]
      · rw [hReturned]
        exact Or.inr (Or.inr rfl)
    · intro c hc
      have hAnswer := List.all_eq_true.mp hAnswers c hc
      cases c <;> first | rfl | cases hAnswer
  · have hMoves := Call.exec_moves hExec
    rw [hTodo] at hCalls
    have hCall := hCalls call List.mem_cons_self
    refine ⟨?_, ?_⟩
    · rcases hMoves.nextWait with hSame | ⟨ok, rfl⟩ | ⟨_, _, rfl, _⟩ | ⟨_, rfl, _⟩ |
        ⟨_, _, hWait, _⟩ | ⟨_, _, _, hWait⟩
      · rwa [hSame]
      · exact Or.inr (Or.inr rfl)
      · cases hCall
      · cases hCall
      · rw [hWait] at hKind
        rcases hKind with hKind | hKind | hKind <;> cases hKind
      · rw [hWait]
        exact Or.inl rfl
    · intro c hc
      rcases hMoves.pushed with hNone | ⟨_, _, _, _, hWait, _⟩ | ⟨pushed, hNext, hPushed⟩
      · rw [hNone] at hc
        cases hc
      · rw [hWait] at hKind
        rcases hKind with hKind | hKind | hKind <;> cases hKind
      · rw [hNext] at hc
        rcases List.mem_append.mp hc with hNew | hOld
        · exact (hPushed c hNew).isGate hCall
        · exact hCalls c (List.mem_cons_of_mem call hOld)

/-- The handle of a task that is a connect loop or a timer. -/
def InBackground (c : NodeConfig Id) (h : Nat) : Prop :=
  ∃ task, c.tasks[h]? = some task ∧ task.IsBackground

/-- The handles in the shared state, and the one a task is about to store. -/
def HandlesInBackground (c : NodeConfig Id) : Prop :=
  (∀ h ∈ c.shared.handles, InBackground c h) ∧
    ∀ (t : Nat) (task : Task Id) (h : Nat), c.tasks[t]? = some task →
      .putExpireTask h ∈ task.todo → InBackground c h

/-- A turn keeps every background handle, and its spawned tasks get new ones. -/
theorem InBackground.after_turn {c : NodeConfig Id} {t h : Nat} {input : Input}
    {task task' : Task Id} {n' : Node Id} {spawned : List (Task Id)} (hBackground : InBackground c h)
    (hTask : c.tasks[t]? = some task)
    (hTurn : task.turn c.shared t c.tasks.length input = some (n', task', spawned)) :
    InBackground ⟨n', c.tasks.set t task' ++ spawned⟩ h := by
  obtain ⟨found, hFound, hKind⟩ := hBackground
  by_cases hSame : h = t
  · subst hSame
    obtain rfl := Option.some.inj (hTask.symm.trans hFound)
    exact ⟨task', getElem?_turn_self (List.getElem?_eq_some_iff.mp hTask).1, hKind.of_turn hTurn⟩
  · exact ⟨found, getElem?_turn_other hSame hFound, hKind⟩

/-- The handle of a task this turn spawns. -/
def SpawnsInBackground (fresh h : Nat) (spawned : List (Task Id)) : Prop :=
  ∃ k new, h = fresh + k ∧ spawned[k]? = some new ∧ new.IsBackground

/-- A turn takes the handles it stores from the state, from its own task, or
from what it spawns. -/
theorem Task.mem_handles_of_turn {n n' : Node Id} {self fresh h : Nat} {task task' : Task Id}
    {input : Input} {spawned : List (Task Id)}
    (hTurn : task.turn n self fresh input = some (n', task', spawned)) (hMem : h ∈ n'.handles) :
    h ∈ n.handles ∨ .putExpireTask h ∈ task.todo ∨ SpawnsInBackground fresh h spawned := by
  rcases Task.turn_eq_some hTurn with ⟨_, _, rfl, _⟩ | ⟨_, rfl, _⟩ | ⟨call, rest, hTodo, hExec⟩
  · exact Or.inl hMem
  · exact Or.inl hMem
  · have hSpawns := Call.exec_spawns hExec
    rw [hTodo]
    cases Call.exec_changes hExec with
    | expirePut handle =>
        rcases Node.mem_handles.mp hMem with hOld | hOld | hNew
        · exact Or.inl (Node.mem_handles.mpr (Or.inl hOld))
        · exact Or.inl (Node.mem_handles.mpr (Or.inr (Or.inl hOld)))
        · obtain rfl : handle = h := Option.some.inj hNew
          exact Or.inr (Or.inl List.mem_cons_self)
    | expireTaken =>
        left
        rcases Node.mem_handles.mp hMem with hOld | hOld | hNone
        · rcases List.mem_append.mp hOld with hOld | hTaken
          · exact Node.mem_handles.mpr (Or.inl hOld)
          · exact Node.mem_handles.mpr (Or.inr (Or.inr (Option.mem_toList.mp hTaken)))
        · exact Node.mem_handles.mpr (Or.inr (Or.inl hOld))
        · cases hNone
    | connectTaskRemoved key =>
        left
        rcases Node.mem_handles.mp hMem with hOld | hOld | hOld
        · rcases List.mem_append.mp hOld with hOld | hRemoved
          · exact Node.mem_handles.mpr (Or.inl hOld)
          · obtain ⟨before, after, hSplit, _⟩ :=
              List.lookup_eq_some_iff.mp (Option.mem_toList.mp hRemoved)
            exact Node.mem_handles.mpr (Or.inr (Or.inl (by simp [hSplit])))
        · obtain ⟨entry, hEntry, rfl⟩ := List.mem_map.mp hOld
          exact Node.mem_handles.mpr
            (Or.inr (Or.inl (List.mem_map_of_mem (List.mem_of_mem_filter hEntry))))
        · exact Node.mem_handles.mpr (Or.inr (Or.inr hOld))
    | managerStopped =>
        left
        rcases Node.mem_handles.mp hMem with hOld | hOld | hOld
        · rcases List.mem_append.mp hOld with hOld | hOld
          · exact Node.mem_handles.mpr (Or.inl hOld)
          · exact Node.mem_handles.mpr (Or.inr (Or.inl hOld))
        · cases hOld
        · exact Node.mem_handles.mpr (Or.inr (Or.inr hOld))
    | refreshed active =>
        rcases Node.mem_handles_refreshTasks hMem with hOld | ⟨k, rfl, hk⟩
        · exact Or.inl hOld
        · obtain ⟨new, hNew⟩ : ∃ new, spawned[k]? = some new := by
            rw [hSpawns, Call.spawns, List.getElem?_map, List.getElem?_eq_getElem hk]
            exact ⟨_, rfl⟩
          refine Or.inr (Or.inr ⟨k, new, rfl, hNew, ?_⟩)
          rw [hSpawns] at hNew
          obtain ⟨d, _, rfl⟩ := List.mem_map.mp (List.mem_of_getElem? hNew)
          exact ⟨Or.inr (Or.inr rfl), by simp [Call.isGate]⟩
    | presence endpointId writer =>
        left
        rw [Node.mem_handles] at hMem ⊢
        simpa using hMem
    | _ => exact Or.inl hMem

/-- The handle a task is about to store was there before, or is its own spawn. -/
theorem Task.putExpireTask_of_turn {n n' : Node Id} {self fresh h : Nat} {task task' : Task Id}
    {input : Input} {spawned : List (Task Id)}
    (hTurn : task.turn n self fresh input = some (n', task', spawned))
    (hMem : .putExpireTask h ∈ task'.todo) :
    .putExpireTask h ∈ task.todo ∨ (h = fresh ∧ spawned = [⟨[], .sleeping⟩]) := by
  rcases Task.turn_eq_some hTurn with ⟨_, _, _, rfl, _⟩ | ⟨_, _, _, hNext⟩ |
    ⟨call, rest, hTodo, hExec⟩
  · cases hMem
  · have hAnswer := List.all_eq_true.mp (Wait.resume_kind hNext).1 _ hMem
    cases hAnswer
  · rw [hTodo]
    rcases (Call.exec_moves hExec).pushed with hNone | ⟨_, _, _, _, _, _, rfl⟩ |
      ⟨pushed, hNext, hPushed⟩
    · rw [hNone] at hMem
      cases hMem
    · simp [pairingCompleted] at hMem
    · rw [hNext] at hMem
      rcases List.mem_append.mp hMem with hNew | hOld
      · have hPush := hPushed _ hNew
        have hSpawns := Call.exec_spawns hExec
        cases hPush with
        | expiry => exact Or.inr ⟨rfl, hSpawns⟩
        | registered conn isOpen _ h => simp [registerInbound, setSession] at h
        | unpairedKept _ _ _ h | unpaired _ _ _ _ h => cases h
      · exact Or.inl (List.mem_cons_of_mem call hOld)

theorem handlesInBackground_step {c d : NodeConfig Id} {l : NodeLabel Id}
    (hInv : HandlesInBackground c) (hStep : step c l = some d) : HandlesInBackground d := by
  have hFirst (task : Task Id) (h : Nat) (hNew : NewTask task)
      (hMem : .putExpireTask h ∈ task.todo) : False := by
    have hCall := List.all_eq_true.mp hNew.isFirst.1 _ hMem
    cases hCall
  obtain ⟨hHandles, hPuts⟩ := hInv
  cases l with
  | call command =>
      obtain rfl := Option.some.inj hStep
      have hKeep (h : Nat) (hOld : InBackground c h) :
          InBackground ⟨c.shared, c.tasks ++ [nodePool.start command]⟩ h := by
        obtain ⟨task, hTask, hKind⟩ := hOld
        exact ⟨task, getElem?_call_old hTask, hKind⟩
      refine ⟨fun h hMem => hKeep h (hHandles h hMem), ?_⟩
      intro t task h hTask hMem
      rcases Execution.Pool.getElem?_after_call hTask with hOld | ⟨_, rfl⟩
      · exact hKeep h (hPuts t task h hOld hMem)
      · exact (hFirst _ h (.command command) hMem).elim
  | restart restart =>
      obtain rfl := Option.some.inj hStep
      refine ⟨fun h hMem => (nomatch hMem), ?_⟩
      intro t task h hTask hMem
      exact (hFirst task h (restarted_new restart c.shared hTask) hMem).elim
  | turn t input =>
      obtain ⟨task, n', task', spawned, hTask, hTurn, rfl⟩ :=
        (Execution.Pool.next_turn_eq_some _).mp hStep
      have hKeep (h : Nat) (hOld : InBackground c h) :
          InBackground ⟨n', c.tasks.set t task' ++ spawned⟩ h := hOld.after_turn hTask hTurn
      have hSpawned (h : Nat) (hNew : SpawnsInBackground c.tasks.length h spawned) :
          InBackground ⟨n', c.tasks.set t task' ++ spawned⟩ h := by
        obtain ⟨k, new, rfl, hNew, hKind⟩ := hNew
        exact ⟨new, by rw [getElem?_turn_spawned, hNew], hKind⟩
      refine ⟨?_, ?_⟩
      · intro h hMem
        rcases Task.mem_handles_of_turn hTurn hMem with hOld | hPut | hNew
        · exact hKeep h (hHandles h hOld)
        · exact hKeep h (hPuts t task h hTask hPut)
        · exact hSpawned h hNew
      · intro u found h hFound hMem
        rcases Execution.Pool.getElem?_after_turn hFound with ⟨rfl, _, rfl⟩ | ⟨_, hOld⟩ |
          ⟨_, hNew⟩
        · rcases Task.putExpireTask_of_turn hTurn hMem with hPut | ⟨hFresh, hTimer⟩
          · exact hKeep h (hPuts _ task h hTask hPut)
          · exact hSpawned h
              ⟨0, ⟨[], .sleeping⟩, hFresh, by rw [hTimer]; rfl, Or.inr (Or.inl rfl), by simp⟩
        · exact hKeep h (hPuts u found h hOld hMem)
        · exact (hFirst found h (Task.spawned_new hTurn hNew) hMem).elim

theorem handlesInBackground_started (restart : Restart Id) (file : List PairedDevice) :
    HandlesInBackground (started restart file) := by
  refine ⟨fun h hMem => (nomatch hMem), ?_⟩
  intro t task h hTask hMem
  have hCall := List.all_eq_true.mp (started_new hTask).isFirst.1 _ hMem
  cases hCall

/-- Only a connect loop or a timer is ever cancelled. -/
theorem HandlesInBackground.of_cancelled {c : NodeConfig Id} {t : Nat} {task task' : Task Id}
    {n' : Node Id} {spawned : List (Task Id)} (hInv : HandlesInBackground c)
    (hTask : c.tasks[t]? = some task)
    (hTurn : task.turn c.shared t c.tasks.length .cancelled = some (n', task', spawned)) :
    task.IsBackground := by
  obtain ⟨hAborted, _⟩ := Task.turn_cancelled hTurn
  obtain ⟨found, hFound, hKind⟩ := hInv.1 t (Node.mem_handles.mpr (Or.inl hAborted))
  obtain rfl := Option.some.inj (hTask.symm.trans hFound)
  exact hKind

end AltSendme
