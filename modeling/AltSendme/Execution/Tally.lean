import AltSendme.Execution.Pool
import Mathlib.Algebra.BigOperators.Group.List.Basic
import Mathlib.Algebra.GroupWithZero.Nat

/-! What the tasks of a pool hold together. Each task is weighed with its
handle; a turn changes the sum by what it changes of one task, as long as what
it spawns weighs nothing. -/
namespace Execution.Pool

universe u
variable {Shared Task Input Command Reset : Type u}

theorem sum_set_add {weights : List Nat} {i old : Nat} (h : weights[i]? = some old) (new : Nat) :
    (weights.set i new).sum + old = weights.sum + new := by
  induction weights generalizing i with
  | nil => simp at h
  | cons w ws ih =>
      cases i with
      | zero =>
          obtain rfl : w = old := by simpa using h
          simp only [List.set_cons_zero, List.sum_cons]
          omega
      | succ i =>
          have hRest := ih (i := i) (by simpa using h)
          simp only [List.set_cons_succ, List.sum_cons]
          omega

/-- The weights of all tasks, summed. -/
def Config.tally (c : Config Shared Task) (weight : Nat → Task → Nat) : Nat :=
  (c.tasks.mapIdx weight).sum

variable {weight weight' : Nat → Task → Nat}

theorem mapIdx_congr {tasks : List Task}
    (hSame : ∀ t task, tasks[t]? = some task → weight' t task = weight t task) :
    tasks.mapIdx weight' = tasks.mapIdx weight := by
  apply List.ext_getElem?
  intro t
  rw [List.getElem?_mapIdx, List.getElem?_mapIdx]
  cases hTask : tasks[t]? with
  | none => rfl
  | some task => exact congrArg some (hSame t task hTask)

theorem tally_eq_zero {c : Config Shared Task}
    (h : ∀ t task, c.tasks[t]? = some task → weight t task = 0) : c.tally weight = 0 := by
  rw [Config.tally, @mapIdx_congr _ (fun _ _ => 0) weight c.tasks h]
  induction c.tasks with
  | nil => rfl
  | cons task tasks ih =>
      rw [List.mapIdx_cons, List.sum_cons, Nat.zero_add]
      exact ih

theorem weight_le_tally {c : Config Shared Task} {t : Nat} {task : Task}
    (hTask : c.tasks[t]? = some task) : weight t task ≤ c.tally weight := by
  have hWeight : (c.tasks.mapIdx weight)[t]? = some (weight t task) := by
    rw [List.getElem?_mapIdx, hTask]
    rfl
  have hSum := sum_set_add hWeight 0
  rw [Config.tally]
  omega

variable {P : Pool Shared Task Input Command Reset} {c d : Config Shared Task}

/-- A call adds the weight of its task. -/
theorem tally_call (weight weight' : Nat → Task → Nat) {command : Command}
    (hNext : P.next c (.call command) = some d)
    (hSame : ∀ t task, c.tasks[t]? = some task → weight' t task = weight t task) :
    d.tally weight' = c.tally weight + weight' c.tasks.length (P.start command) := by
  obtain rfl := Option.some.inj hNext
  simp only [Config.tally, List.mapIdx_append, List.sum_append, mapIdx_congr hSame]
  simp

/-- A turn changes one weight. -/
theorem tally_turn (weight weight' : Nat → Task → Nat) (shared : Shared) {t : Nat} {task : Task}
    (task' : Task) {spawned : List Task}
    (hTask : c.tasks[t]? = some task)
    (hSame : ∀ u other, u ≠ t → c.tasks[u]? = some other → weight' u other = weight u other)
    (hSpawned : ∀ u, ∀ new ∈ spawned, weight' u new = 0) :
    (⟨shared, c.tasks.set t task' ++ spawned⟩ : Config Shared Task).tally weight' +
        weight t task = c.tally weight + weight' t task' := by
  have hLength : t < c.tasks.length := (List.getElem?_eq_some_iff.mp hTask).1
  have hNew : (spawned.mapIdx fun k => weight' (k + (c.tasks.set t task').length)).sum = 0 := by
    have hZero := @tally_eq_zero Shared Task
      (fun k => weight' (k + (c.tasks.set t task').length)) ⟨shared, spawned⟩
      (fun u new hNew => hSpawned _ new (List.mem_of_getElem? hNew))
    exact hZero
  have hOld : (c.tasks.mapIdx weight)[t]? = some (weight t task) := by
    rw [List.getElem?_mapIdx, hTask]
    rfl
  have hMoved : (c.tasks.set t task').mapIdx weight' =
      (c.tasks.mapIdx weight).set t (weight' t task') := by
    apply List.ext_getElem?
    intro u
    by_cases hut : u = t
    · subst hut
      rw [List.getElem?_mapIdx, List.getElem?_set_self hLength,
        List.getElem?_set_self (by simpa using hLength)]
      rfl
    · rw [List.getElem?_mapIdx, List.getElem?_set_ne (Ne.symm hut),
        List.getElem?_set_ne (Ne.symm hut), List.getElem?_mapIdx]
      cases hOther : c.tasks[u]? with
      | none => rfl
      | some other => exact congrArg some (hSame u other hut hOther)
  simp only [Config.tally, List.mapIdx_append, List.sum_append, hNew, hMoved, Nat.add_zero]
  exact sum_set_add hOld _

end Execution.Pool
