import AltSendme.Native.StoreRecords
import AltSendme.Execution.Pool
import Mathlib.Data.List.Permutation

/-! Store calls that overlap. Nothing locks `paired-devices.json`: a call reads
it, writes its list to the one temporary file and renames that file, and other
calls may move between any two of these steps. -/
namespace AltSendme
open Execution

/-- The file and its temporary, each as the list it parses to when it exists. -/
structure StoreDisk where
  path : Option (List PairedDevice)
  tmp : Option (List PairedDevice)
  deriving DecidableEq, Repr

/-- `read_file` -/
def StoreDisk.readFile (disk : StoreDisk) : List PairedDevice := disk.path.getD []

/-- Where a call stands; `base` is the list it read. -/
inductive StoreStage where
  | reading
  | writing (base : List PairedDevice)
  | replacing (base : List PairedDevice)
  | finished
  | failed
  deriving DecidableEq, Repr

structure StoreTask where
  call : StoreCall
  stage : StoreStage
  deriving DecidableEq, Repr

namespace StoreTask
variable (lower : String → String)

/-- The next step of a call. A rename moves whatever the temporary file holds,
and fails when another call has already moved it. -/
def turn (disk : StoreDisk) (task : StoreTask) : Option (StoreDisk × StoreTask) :=
  match task.stage with
  | .reading =>
      match task.call.written lower disk.readFile with
      | some _ => some (disk, { task with stage := .writing disk.readFile })
      | none => some (disk, { task with stage := .finished })
  | .writing base =>
      some ({ disk with tmp := some (task.call.apply lower base) },
        { task with stage := .replacing base })
  | .replacing _ =>
      match disk.tmp with
      | some list => some ({ path := some list, tmp := none }, { task with stage := .finished })
      | none => some (disk, { task with stage := .failed })
  | .finished | .failed => none

/-- The call, once it has returned without an error of the file system. -/
def done (task : StoreTask) : Option StoreCall :=
  if task.stage = .finished then some task.call else none

/-- The call has returned. -/
def IsOver (task : StoreTask) : Prop := task.stage = .finished ∨ task.stage = .failed

instance (task : StoreTask) : Decidable task.IsOver :=
  inferInstanceAs (Decidable (_ ∨ _))

end StoreTask

/-- Any number of calls, started at any time, that share the disk. -/
def storeCalls (lower : String → String) : Pool StoreDisk StoreTask Unit StoreCall Empty where
  turn disk _ _ task _ := (task.turn lower disk).map fun (disk', task') => (disk', task', [])
  start call := ⟨call, .reading⟩
  restart := nofun

/-- A run of the store from a disk on which no call has started. -/
abbrev storeStep (lower : String → String) := (storeCalls lower).next

def storeAtRest (disk : StoreDisk) : Pool.Config StoreDisk StoreTask := ⟨disk, []⟩

/-- The calls of a run, in the order in which they were started. -/
def calledIn (ls : List (Pool.Label Unit StoreCall Empty)) : List StoreCall :=
  ls.filterMap fun l => match l with
    | .call call => some call
    | _ => none

/-- A call renames only what it wrote itself, over the list it read itself. -/
def RenamesOwn (lower : String → String) (c : Pool.Config StoreDisk StoreTask) :
    Pool.Label Unit StoreCall Empty → Prop
  | .turn t _ =>
      match c.tasks[t]? with
      | some ⟨call, .replacing base⟩ =>
          c.shared.readFile = base ∧ c.shared.tmp = some (call.apply lower base)
      | _ => True
  | _ => True

instance (lower : String → String) (c : Pool.Config StoreDisk StoreTask) :
    (l : Pool.Label Unit StoreCall Empty) → Decidable (RenamesOwn lower c l)
  | .call _ | .restart _ => .isTrue trivial
  | .turn t _ => by
      unfold RenamesOwn
      dsimp only
      split <;> infer_instance

/-- What stands between two steps: the file is what the returned calls make of
the first one in some order, and no call has lost its temporary file. -/
structure Serialized (lower : String → String) (start : StoreDisk)
    (c : Pool.Config StoreDisk StoreTask) : Prop where
  order : ∃ order : List StoreCall, order.Perm (c.tasks.filterMap StoreTask.done) ∧
    c.shared.readFile = StoreCall.applyAll lower start.readFile order
  noneFailed : ∀ task ∈ c.tasks, task.stage ≠ .failed

section
variable {lower : String → String} {start : StoreDisk} {c : Pool.Config StoreDisk StoreTask}

theorem StoreCall.applyAll_concat (file : List PairedDevice) (calls : List StoreCall)
    (call : StoreCall) :
    applyAll lower file (calls ++ [call]) = call.apply lower (applyAll lower file calls) := by
  rw [applyAll, List.foldl_append]
  rfl

/-- A call that does not write would not have changed the file. -/
theorem StoreCall.apply_of_unwritten {file : List PairedDevice} {call : StoreCall}
    (h : call.written lower file = none) : call.apply lower file = file := by
  rw [apply, h]
  rfl

/-- A task that moves without returning changes no result. -/
theorem filterMap_done_set {tasks : List StoreTask} {t : Nat} {task task' : StoreTask}
    (hTask : tasks[t]? = some task) (hSame : task'.done = task.done) :
    (tasks.set t task').filterMap StoreTask.done = tasks.filterMap StoreTask.done := by
  obtain ⟨ht, rfl⟩ := List.getElem?_eq_some_iff.mp hTask
  conv_rhs => rw [← List.take_append_drop t tasks, List.drop_eq_getElem_cons ht]
  rw [List.set_eq_take_append_cons_drop, if_pos ht, List.filterMap_append, List.filterMap_append,
    List.filterMap_cons, List.filterMap_cons, hSame]

/-- A task that returns adds its call to the results. -/
theorem filterMap_done_set_perm {tasks : List StoreTask} {t : Nat} {task task' : StoreTask}
    {call : StoreCall} (hTask : tasks[t]? = some task) (hOld : task.done = none)
    (hNew : task'.done = some call) :
    ((tasks.set t task').filterMap StoreTask.done).Perm
      (tasks.filterMap StoreTask.done ++ [call]) := by
  obtain ⟨ht, rfl⟩ := List.getElem?_eq_some_iff.mp hTask
  conv_rhs => rw [← List.take_append_drop t tasks, List.drop_eq_getElem_cons ht]
  rw [List.set_eq_take_append_cons_drop, if_pos ht, List.filterMap_append, List.filterMap_append,
    List.filterMap_cons_some hNew, List.filterMap_cons_none hOld, List.append_assoc]
  exact (List.perm_append_singleton call _).symm.append_left _

/-- The step of a call that does not return. -/
theorem Serialized.moves (h : Serialized lower start c) {t : Nat} {task task' : StoreTask}
    {disk : StoreDisk} (hTask : c.tasks[t]? = some task) (hKept : disk.path = c.shared.path)
    (hOld : task.done = none) (hNew : task'.done = none) (hFine : task'.stage ≠ .failed) :
    Serialized lower start ⟨disk, c.tasks.set t task' ++ []⟩ := by
  obtain ⟨order, hPerm, hFile⟩ := h.order
  have hRead : disk.readFile = c.shared.readFile := by rw [StoreDisk.readFile, hKept]; rfl
  refine ⟨⟨order, ?_, hRead.trans hFile⟩, ?_⟩
  · rw [List.append_nil, filterMap_done_set hTask (hNew.trans hOld.symm)]
    exact hPerm
  · intro other hOther
    rw [List.append_nil] at hOther
    rcases List.mem_or_eq_of_mem_set hOther with hMem | rfl
    · exact h.noneFailed other hMem
    · exact hFine

/-- The step at which a call returns: it comes last in the order. -/
theorem Serialized.returns (h : Serialized lower start c) {t : Nat} {task : StoreTask}
    {disk : StoreDisk} (hTask : c.tasks[t]? = some task) (hOld : task.done = none)
    (hFile : disk.readFile = task.call.apply lower c.shared.readFile) :
    Serialized lower start ⟨disk, c.tasks.set t { task with stage := .finished } ++ []⟩ := by
  obtain ⟨order, hPerm, hPrior⟩ := h.order
  refine ⟨⟨order ++ [task.call], ?_, ?_⟩, ?_⟩
  · rw [List.append_nil]
    exact (hPerm.append_right _).trans (filterMap_done_set_perm hTask hOld rfl).symm
  · rw [StoreCall.applyAll_concat, ← hPrior]
    exact hFile
  · intro other hOther
    rw [List.append_nil] at hOther
    rcases List.mem_or_eq_of_mem_set hOther with hMem | rfl
    · exact h.noneFailed other hMem
    · exact StoreStage.noConfusion

theorem Serialized.turn (h : Serialized lower start c) {d : Pool.Config StoreDisk StoreTask}
    {t : Nat} (hOwn : RenamesOwn lower c (.turn t ()))
    (hNext : storeStep lower c (.turn t ()) = some d) : Serialized lower start d := by
  obtain ⟨task, shared, task', spawned, hTask, hTurn, rfl⟩ :=
    (storeCalls lower).next_turn_eq_some.mp hNext
  obtain ⟨call, stage⟩ := task
  cases stage with
  | reading =>
      cases hWritten : call.written lower c.shared.readFile with
      | none =>
          obtain ⟨rfl, rfl, rfl⟩ : c.shared = shared ∧ ⟨call, .finished⟩ = task' ∧ [] = spawned := by
            simpa [storeCalls, StoreTask.turn, hWritten] using hTurn
          exact h.returns hTask rfl (StoreCall.apply_of_unwritten hWritten).symm
      | some list =>
          obtain ⟨rfl, rfl, rfl⟩ : c.shared = shared ∧
              ⟨call, .writing c.shared.readFile⟩ = task' ∧ [] = spawned := by
            simpa [storeCalls, StoreTask.turn, hWritten] using hTurn
          exact h.moves hTask rfl rfl rfl StoreStage.noConfusion
  | writing base =>
      obtain ⟨rfl, rfl, rfl⟩ : { c.shared with tmp := some (call.apply lower base) } = shared ∧
          ⟨call, .replacing base⟩ = task' ∧ [] = spawned := by
        simpa [storeCalls, StoreTask.turn] using hTurn
      exact h.moves hTask rfl rfl rfl StoreStage.noConfusion
  | replacing base =>
      obtain ⟨rfl, hTmp⟩ : c.shared.readFile = base ∧
          c.shared.tmp = some (call.apply lower base) := by
        simpa [RenamesOwn, hTask] using hOwn
      obtain ⟨rfl, rfl, rfl⟩ : ⟨some (call.apply lower c.shared.readFile), none⟩ = shared ∧
          ⟨call, .finished⟩ = task' ∧ [] = spawned := by
        simpa [storeCalls, StoreTask.turn, hTmp] using hTurn
      exact h.returns hTask rfl rfl
  | finished => simp [storeCalls, StoreTask.turn] at hTurn
  | failed => simp [storeCalls, StoreTask.turn] at hTurn

theorem Serialized.called (h : Serialized lower start c) (call : StoreCall) :
    Serialized lower start ⟨c.shared, c.tasks ++ [⟨call, .reading⟩]⟩ := by
  obtain ⟨order, hPerm, hFile⟩ := h.order
  refine ⟨⟨order, ?_, hFile⟩, ?_⟩
  · rw [List.filterMap_append]
    simpa [StoreTask.done] using hPerm
  · intro other hOther
    rcases List.mem_append.mp hOther with hMem | hMem
    · exact h.noneFailed other hMem
    · rw [List.mem_singleton.mp hMem]
      exact StoreStage.noConfusion

theorem serialized_step {d : Pool.Config StoreDisk StoreTask} {l : Pool.Label Unit StoreCall Empty}
    (h : Serialized lower start c) (hOwn : RenamesOwn lower c l)
    (hNext : storeStep lower c l = some d) : Serialized lower start d := by
  cases l with
  | call call =>
      obtain rfl := Option.some.inj hNext
      exact h.called call
  | turn t input => exact h.turn hOwn hNext
  | restart reset => exact nomatch reset

theorem serialized_atRest (start : StoreDisk) : Serialized lower start (storeAtRest start) :=
  ⟨⟨[], .nil, rfl⟩, nofun⟩

/-- Each task keeps the call it was started with. -/
theorem StoreTask.turn_call {disk disk' : StoreDisk} {task task' : StoreTask}
    (h : task.turn lower disk = some (disk', task')) : task'.call = task.call := by
  obtain ⟨call, stage⟩ := task
  cases stage <;> simp only [StoreTask.turn] at h
  case reading => split at h <;> cases h <;> rfl
  case writing => cases h; rfl
  case replacing => split at h <;> cases h <;> rfl
  all_goals cases h

theorem tasks_calledIn {ls : List (Pool.Label Unit StoreCall Empty)}
    (hRun : exec (storeStep lower) (storeAtRest start) ls = some c) :
    c.tasks.map StoreTask.call = calledIn ls := by
  refine @exec_history _ _ _ (fun ls c => c.tasks.map StoreTask.call = calledIn ls) _ rfl ?_ ls c
    hRun
  intro ls m l t _ hInv hNext
  cases l with
  | call call =>
      obtain rfl := Option.some.inj hNext
      rw [List.map_append, hInv]
      simp [calledIn, storeCalls]
  | restart reset => exact nomatch reset
  | turn u input =>
      obtain ⟨task, shared, task', spawned, hTask, hTurn, rfl⟩ :=
        (storeCalls lower).next_turn_eq_some.mp hNext
      obtain ⟨⟨disk', moved⟩, hMoved, hEq⟩ := Option.map_eq_some_iff.mp hTurn
      obtain ⟨rfl, rfl, rfl⟩ : disk' = shared ∧ moved = task' ∧ [] = spawned := by
        simpa using hEq
      obtain ⟨hu, rfl⟩ := List.getElem?_eq_some_iff.mp hTask
      have hSame : (m.tasks.set u moved).map StoreTask.call = m.tasks.map StoreTask.call := by
        have hIn : u < (m.tasks.map StoreTask.call).length := by simpa using hu
        rw [List.map_set, StoreTask.turn_call hMoved, ← List.getElem_map StoreTask.call (h := hIn),
          List.set_getElem_self]
      rw [List.append_nil, hSame, hInv]
      simp [calledIn]

/-- Once every call is over, the results are the calls of the run. -/
theorem Serialized.done_eq_calledIn (h : Serialized lower start c)
    {ls : List (Pool.Label Unit StoreCall Empty)}
    (hRun : exec (storeStep lower) (storeAtRest start) ls = some c)
    (hOver : ∀ task ∈ c.tasks, task.IsOver) :
    c.tasks.filterMap StoreTask.done = calledIn ls := by
  rw [← tasks_calledIn hRun, ← List.filterMap_eq_map]
  apply List.filterMap_congr
  intro task hTask
  have hFinished := (hOver task hTask).resolve_right (h.noneFailed task hTask)
  simp [StoreTask.done, hFinished]

/-- When each rename replaces the list its call read by the list its call wrote,
the file is at every moment what the returned calls make of it in some order,
and at the end that order has every call of the run. -/
theorem store_operations_serializable {ls : List (Pool.Label Unit StoreCall Empty)}
    (hRun : exec (storeStep lower) (storeAtRest start) ls = some c)
    (hMeets : Meets (storeStep lower) (RenamesOwn lower) (storeAtRest start) ls) :
    Serialized lower start c ∧
      ((∀ task ∈ c.tasks, task.IsOver) → ∃ order : List StoreCall, order.Perm (calledIn ls) ∧
        c.shared.readFile = StoreCall.applyAll lower start.readFile order) := by
  have hSerialized : Serialized lower start c :=
    hMeets.invariant (fun _ _ _ h hOwn hNext => serialized_step h hOwn hNext) hRun
      (serialized_atRest start)
  refine ⟨hSerialized, fun hOver => ?_⟩
  obtain ⟨order, hPerm, hFile⟩ := hSerialized.order
  rw [hSerialized.done_eq_calledIn hRun hOver] at hPerm
  exact ⟨order, hPerm, hFile⟩

end

section
private def peer : PairedDevice :=
  { endpointId := "a1", displayName := "Desk", deviceType := "desktop", os := "linux"
    pairedAt := 10, lastSeenAt := 10, relayUrl := none, pairingStatus := .active }

private def forgetPeer : StoreCall := .one (.forget "A1")

private def touchPeer : StoreCall := .one (.touch "a1" 20)

private def paired : StoreDisk := ⟨some [peer], none⟩

/-- A touch of an unknown device reads while the peer is forgotten. -/
private def apart : List (Pool.Label Unit StoreCall Empty) :=
  [.call forgetPeer, .call (.one (.touch "b2" 20)), .turn 0 (), .turn 0 (), .turn 1 (), .turn 0 ()]

/-- The touch of a connecting peer reads before that peer is forgotten and
writes after it. -/
private def overlapping : List (Pool.Label Unit StoreCall Empty) :=
  [.call touchPeer, .call forgetPeer, .turn 0 (), .turn 1 (), .turn 1 (), .turn 1 (), .turn 0 (),
    .turn 0 ()]

theorem store_operations_serializable_unknownTouched : ∃ c,
    exec (storeStep String.toLowercase) (storeAtRest paired) apart = some c ∧
      ∃ order : List StoreCall, order.Perm (calledIn apart) ∧
        c.shared.readFile = StoreCall.applyAll String.toLowercase [peer] order := by
  have hRuns : ∃ c, exec (storeStep String.toLowercase) (storeAtRest paired) apart = some c ∧
      ∀ task ∈ c.tasks, task.IsOver := by
    decide
  obtain ⟨c, hRun, hOver⟩ := hRuns
  exact ⟨c, hRun, (store_operations_serializable hRun (by decide)).2 hOver⟩

/-- A forgotten device is back, although both calls returned without an error. -/
theorem forgotten_device_restored : ∃ c,
    exec (storeStep String.toLowercase) (storeAtRest paired) overlapping = some c ∧
      (∀ task ∈ c.tasks, task.stage = .finished) ∧
      ¬∃ order : List StoreCall, order.Perm (calledIn overlapping) ∧
        c.shared.readFile = StoreCall.applyAll String.toLowercase [peer] order := by
  have hRuns : ∃ c,
      exec (storeStep String.toLowercase) (storeAtRest paired) overlapping = some c ∧
        (∀ task ∈ c.tasks, task.stage = .finished) ∧
        ∀ order ∈ (calledIn overlapping).permutations',
          c.shared.readFile ≠ StoreCall.applyAll String.toLowercase [peer] order := by
    decide
  obtain ⟨c, hRun, hFinished, hNone⟩ := hRuns
  refine ⟨c, hRun, hFinished, ?_⟩
  rintro ⟨order, hPerm, hFile⟩
  exact hNone order (List.mem_permutations'.mpr hPerm) hFile

end

end AltSendme
