import AltSendme.Execution.Run

/-! Spawned tasks that share one state. A turn is one access to the shared
state by one task: everything between two accesses is local to the task, so
interleaving whole turns loses no schedule. Handles are positions in the
list of all tasks ever spawned and are never reused. -/
namespace Execution

universe u
variable {Shared Task Input Command Reset : Type u}

/-- `turn shared self fresh task input` performs the task's next access.
`self` is its own handle and `fresh` the handle of the next spawned task. -/
structure Pool (Shared Task Input Command Reset : Type u) where
  turn : Shared → Nat → Nat → Task → Input → Option (Shared × Task × List Task)
  start : Command → Task
  restart : Reset → Shared → Shared × List Task

namespace Pool

structure Config (Shared Task : Type u) where
  shared : Shared
  tasks : List Task

/-- The environment calls a command, schedules a task with the answer of what
it awaits, or restarts the process. -/
inductive Label (Input Command Reset : Type u) where
  | call (command : Command)
  | turn (task : Nat) (input : Input)
  | restart (reset : Reset)

variable (P : Pool Shared Task Input Command Reset)

def next (c : Config Shared Task) : Label Input Command Reset → Option (Config Shared Task)
  | .call command => some ⟨c.shared, c.tasks ++ [P.start command]⟩
  | .turn t input => do
      let task ← c.tasks[t]?
      let (shared, task', spawned) ← P.turn c.shared t c.tasks.length task input
      some ⟨shared, c.tasks.set t task' ++ spawned⟩
  | .restart reset =>
      let (shared, tasks) := P.restart reset c.shared
      some ⟨shared, tasks⟩

/-- What one scheduled turn did. -/
theorem next_turn_eq_some {c d : Config Shared Task} {t : Nat} {input : Input} :
    P.next c (.turn t input) = some d ↔
      ∃ task shared task' spawned, c.tasks[t]? = some task ∧
        P.turn c.shared t c.tasks.length task input = some (shared, task', spawned) ∧
        d = ⟨shared, c.tasks.set t task' ++ spawned⟩ := by
  constructor
  · intro h
    cases hTask : c.tasks[t]? with
    | none => simp [next, hTask] at h
    | some task =>
        cases hTurn : P.turn c.shared t c.tasks.length task input with
        | none => simp [next, hTask, hTurn] at h
        | some result =>
            obtain ⟨shared, task', spawned⟩ := result
            refine ⟨task, shared, task', spawned, rfl, hTurn, ?_⟩
            simpa [next, hTask, hTurn] using h.symm
  · rintro ⟨task, shared, task', spawned, hTask, hTurn, rfl⟩
    simp [next, hTask, hTurn]

omit P in
/-- After a turn a handle names the task that moved, a task that was there
before, or a task this turn spawned. -/
theorem getElem?_after_turn {tasks spawned : List Task} {task' found : Task} {t u : Nat}
    (h : (tasks.set t task' ++ spawned)[u]? = some found) :
    (u = t ∧ t < tasks.length ∧ found = task') ∨ (u ≠ t ∧ tasks[u]? = some found) ∨
      (tasks.length ≤ u ∧ found ∈ spawned) := by
  rcases Nat.lt_or_ge u tasks.length with hu | hu
  · rw [List.getElem?_append_left (by simpa using hu)] at h
    by_cases hut : u = t
    · subst hut
      rw [List.getElem?_set_self hu, Option.some.injEq] at h
      exact Or.inl ⟨rfl, hu, h.symm⟩
    · rw [List.getElem?_set_ne (Ne.symm hut)] at h
      exact Or.inr (Or.inl ⟨hut, h⟩)
  · rw [List.getElem?_append_right (by simpa using hu)] at h
    exact Or.inr (Or.inr ⟨hu, List.mem_of_getElem? h⟩)

omit P in
theorem getElem?_turn_self {tasks spawned : List Task} {task' : Task} {t : Nat}
    (ht : t < tasks.length) : (tasks.set t task' ++ spawned)[t]? = some task' := by
  rw [List.getElem?_append_left (by simpa using ht), List.getElem?_set_self ht]

omit P in
theorem getElem?_turn_other {tasks spawned : List Task} {task' found : Task} {t u : Nat}
    (hu : u ≠ t) (h : tasks[u]? = some found) :
    (tasks.set t task' ++ spawned)[u]? = some found := by
  have hLength : u < tasks.length := (List.getElem?_eq_some_iff.mp h).1
  rw [List.getElem?_append_left (by simpa using hLength), List.getElem?_set_ne (Ne.symm hu), h]

omit P in
theorem getElem?_turn_spawned {tasks spawned : List Task} {task' : Task} {t k : Nat} :
    (tasks.set t task' ++ spawned)[tasks.length + k]? = spawned[k]? := by
  rw [List.getElem?_append_right (by simp)]
  simp

omit P in
theorem getElem?_call_old {tasks : List Task} {new found : Task} {u : Nat}
    (h : tasks[u]? = some found) : (tasks ++ [new])[u]? = some found := by
  rw [List.getElem?_append_left (List.getElem?_eq_some_iff.mp h).1, h]

omit P in
theorem getElem?_after_call {tasks : List Task} {new found : Task} {u : Nat}
    (h : (tasks ++ [new])[u]? = some found) :
    tasks[u]? = some found ∨ (u = tasks.length ∧ found = new) := by
  rcases Nat.lt_or_ge u tasks.length with hu | hu
  · rw [List.getElem?_append_left hu] at h
    exact Or.inl h
  · rw [List.getElem?_append_right hu] at h
    have hZero : u - tasks.length = 0 := by
      by_contra hne
      rw [List.getElem?_eq_none (by simp; omega)] at h
      cases h
    rw [hZero] at h
    exact Or.inr ⟨by omega, by simpa using h.symm⟩

omit P in
/-- Every task of a configuration. -/
def Config.All (c : Config Shared Task) (I : Shared → Task → Prop) : Prop :=
  ∀ (t : Nat) (task : Task), c.tasks[t]? = some task → I c.shared task

/-- The proof rule for an invariant about each task and the shared state.
`hOther` is freedom from interference; `C` is what the run promises of each
of its steps, with the whole configuration in view. -/
theorem all_of_turn {I : Shared → Task → Prop} {c d : Config Shared Task} {t : Nat}
    {input : Input} (hAll : c.All I) (hNext : P.next c (.turn t input) = some d)
    (hOwn : ∀ task shared task' spawned, c.tasks[t]? = some task → I c.shared task →
      P.turn c.shared t c.tasks.length task input = some (shared, task', spawned) →
      I shared task' ∧ ∀ new ∈ spawned, I shared new)
    (hOther : ∀ task shared task' spawned u other, c.tasks[t]? = some task →
      P.turn c.shared t c.tasks.length task input = some (shared, task', spawned) →
      u ≠ t → c.tasks[u]? = some other → I c.shared other → I shared other) :
    d.All I := by
  obtain ⟨task, shared, task', spawned, hTask, hTurn, rfl⟩ := P.next_turn_eq_some.mp hNext
  obtain ⟨hMoved, hSpawned⟩ := hOwn task shared task' spawned hTask (hAll t task hTask) hTurn
  intro u found hFound
  rcases getElem?_after_turn hFound with ⟨_, _, rfl⟩ | ⟨hne, hOld⟩ | ⟨_, hNew⟩
  · exact hMoved
  · exact hOther task shared task' spawned u found hTask hTurn hne hOld (hAll u found hOld)
  · exact hSpawned found hNew

theorem all_of_call {I : Shared → Task → Prop} {c d : Config Shared Task} {command : Command}
    (hAll : c.All I) (hNext : P.next c (.call command) = some d)
    (hStart : I c.shared (P.start command)) : d.All I := by
  obtain rfl := Option.some.inj hNext
  intro u found hFound
  rcases getElem?_after_call hFound with hOld | ⟨_, rfl⟩
  · exact hAll u found hOld
  · exact hStart

end Pool

end Execution
