import AltSendme.Native.ControlAccess
import AltSendme.Native.LoopTable

/-! The connect loops that a refresh leaves. A loop that has ended keeps its
entry in the table, and `refresh` takes the entry for a running loop. -/
namespace AltSendme

variable {Id : Type}
open EndpointKeys (toStr fromStr)
open Execution (exec)
open Execution.Pool (getElem?_turn_self getElem?_turn_other getElem?_turn_spawned)

/-- A connect loop of this key that has not ended and that nobody aborted. -/
def Running (key : String) (c : NodeConfig Id) : Prop :=
  ∃ entry ∈ c.tasks.zipIdx, entry.2 ∉ c.shared.aborted ∧
    ∃ endpointId ∈ entry.1.looping, endpointId.toLowercase = key

instance (key : String) (c : NodeConfig Id) : Decidable (Running key c) := by
  unfold Running
  infer_instance

/-- The device of this key is stored, and connectable. -/
def Connectable (key : String) (n : Node Id) : Prop :=
  (∃ d ∈ n.file, d.endpointId.toLowercase = key) ∧
    ∀ d ∈ n.file, d.endpointId.toLowercase = key → d.pairingStatus.isConnectable = true

instance (key : String) (n : Node Id) : Decidable (Connectable key n) := by
  unfold Connectable
  infer_instance

/-- Every active device has a connect loop, and only connectable ones have. -/
def LoopsMatch (c : NodeConfig Id) : Prop :=
  (∀ d ∈ c.shared.file, d.pairingStatus.isActive = true →
    Running d.endpointId.toLowercase c) ∧
  ∀ key, Running key c → Connectable key c.shared

/-- Where `refresh` returns: with the list it read, or with none where the file
could not be read. -/
def refreshReturn (c : NodeConfig Id) : NodeLabel Id → Option (Option (List PairedDevice))
  | .turn t input =>
      match nextCall c t, input with
      | some (.refreshTasks active), _ => some (some active)
      | some .refresh, .fail => some none
      | _, _ => none
  | _ => none

/-- The keys whose entries `refresh` leaves in the table. -/
def refreshedKeys (c : NodeConfig Id) : Option (List PairedDevice) → List String
  | some active => active.map (·.endpointId.toLowercase)
  | none => c.shared.connectTasks.map Prod.fst

/-- The loop behind the entry has not ended; without an entry a new loop is
started, if there is a list to go by. -/
def loopLeft (c : NodeConfig Id) (read : Option (List PairedDevice)) (key : String) : Bool :=
  match c.shared.connectTask key with
  | some handle => c.tasks[handle]?.any fun task => task.looping != []
  | none => read.isSome

/-- What `refresh` relies on: every active device is in the list, its entry is
not that of a loop that has ended, and no loop is left to a device that is not
connectable by now. -/
def RefreshesWell (c : NodeConfig Id) (read : Option (List PairedDevice)) : Prop :=
  (∀ d ∈ c.shared.file, d.pairingStatus.isActive = true →
    d.endpointId.toLowercase ∈ refreshedKeys c read ∧
      loopLeft c read d.endpointId.toLowercase = true) ∧
  ∀ key ∈ refreshedKeys c read, loopLeft c read key = true → Connectable key c.shared

instance (c : NodeConfig Id) (read : Option (List PairedDevice)) :
    Decidable (RefreshesWell c read) := by
  unfold RefreshesWell
  infer_instance

section Refresh

theorem running_iff {key : String} {c : NodeConfig Id} : Running key c ↔
    ∃ (t : Nat) (task : Task Id), c.tasks[t]? = some task ∧ t ∉ c.shared.aborted ∧
      ∃ endpointId ∈ task.looping, endpointId.toLowercase = key := by
  constructor
  · rintro ⟨⟨task, t⟩, hMem, hAlive, hLoops⟩
    exact ⟨t, task, List.mem_zipIdx_iff_getElem?.mp hMem, hAlive, hLoops⟩
  · rintro ⟨t, task, hTask, hAlive, hLoops⟩
    exact ⟨(task, t), List.mem_zipIdx_iff_getElem?.mpr hTask, hAlive, hLoops⟩

/-- A loop of `key` runs exactly when the entry of `key` is of one that has not
ended. -/
theorem LoopsBooked.running_iff {c : NodeConfig Id} (h : LoopsBooked c) {key : String} :
    Running key c ↔ ∃ handle, (key, handle) ∈ c.shared.connectTasks ∧
      ∃ task, c.tasks[handle]? = some task ∧ task.looping ≠ [] := by
  rw [AltSendme.running_iff]
  constructor
  · rintro ⟨t, task, hTask, hAlive, endpointId, hMem, rfl⟩
    exact ⟨t, h.booked t task endpointId hTask hMem hAlive, task, hTask, List.ne_nil_of_mem hMem⟩
  · rintro ⟨handle, hEntry, task, hTask, hLoops⟩
    obtain ⟨endpointId, hMem⟩ := List.exists_mem_of_ne_nil _ hLoops
    have hAlive := h.kept key handle hEntry
    have hOwn := h.booked handle task endpointId hTask hMem hAlive
    exact ⟨handle, task, hTask, hAlive, endpointId, hMem, h.unique _ _ _ hOwn hEntry⟩

theorem LoopsBooked.loopLeft_eq_true {c : NodeConfig Id} (h : LoopsBooked c)
    {read : Option (List PairedDevice)} {key : String} : loopLeft c read key = true ↔
      Running key c ∨ (key ∉ c.shared.connectTasks.map Prod.fst ∧ read.isSome = true) := by
  rw [h.running_iff, loopLeft, Node.connectTask]
  cases hEntry : c.shared.connectTasks.lookup key with
  | some handle =>
      have hMem := (lookup_eq_some_iff_mem h.keys).mp hEntry
      have hKey : key ∈ c.shared.connectTasks.map Prod.fst := mem_keys.mpr ⟨handle, hMem⟩
      simp only [hKey, not_true_eq_false, false_and, or_false, Option.any_eq_true, bne_iff_ne]
      constructor
      · exact fun hLoop => ⟨handle, hMem, hLoop⟩
      · rintro ⟨other, hOther, hLoop⟩
        rw [← lookup_eq_some_iff_mem h.keys, hEntry, Option.some.injEq] at hOther
        exact hOther ▸ hLoop
  | none =>
      have hNone (handle : Nat) : (key, handle) ∉ c.shared.connectTasks := by
        rw [← lookup_eq_some_iff_mem h.keys, hEntry]
        nofun
      have hKey : key ∉ c.shared.connectTasks.map Prod.fst := by
        intro hIn
        obtain ⟨handle, hMem⟩ := mem_keys.mp hIn
        exact hNone handle hMem
      simp [hKey, hNone]

/-- A task that drops a call which is no check of a loop is the loop it was. -/
theorem looping_after {c : NodeConfig Id} {t u : Nat} {call : Call Id} {rest : List (Call Id)}
    {wait : Wait Id} {found : Task Id} (spawned : List (Task Id))
    (hTask : c.tasks[t]? = some ⟨call :: rest, wait⟩) (hCall : call.looping = none)
    (hFound : c.tasks[u]? = some found) :
    ∃ after, (c.tasks.set t ⟨rest, wait⟩ ++ spawned)[u]? = some after ∧
      after.looping = found.looping := by
  by_cases hSame : u = t
  · subst hSame
    obtain rfl := Option.some.inj (hTask.symm.trans hFound)
    refine ⟨_, getElem?_turn_self (List.getElem?_eq_some_iff.mp hTask).1, ?_⟩
    simp [Task.looping, hCall]
  · exact ⟨found, getElem?_turn_other hSame hFound, rfl⟩

theorem running_after_refreshTasks {c : NodeConfig Id} {t : Nat} {rest : List (Call Id)}
    {wait : Wait Id} {active : List PairedDevice} {d : NodeConfig Id} {key : String}
    (hInv : LoopsBooked c) (hAfter : LoopsBooked d)
    (hTask : c.tasks[t]? = some ⟨.refreshTasks active :: rest, wait⟩)
    (hStep : d = ⟨(c.shared.refreshTasks c.tasks.length active).1,
      c.tasks.set t ⟨rest, wait⟩ ++ Call.spawns c.shared c.tasks.length (.refreshTasks active)⟩) :
    Running key d ↔
      key ∈ refreshedKeys c (some active) ∧ loopLeft c (some active) key = true := by
  have hSpawning := c.shared.refreshTasks_spawning c.tasks.length active hInv.keys
  have hTable (handle : Nat) : (key, handle) ∈ d.shared.connectTasks ↔
      (key, handle) ∈ c.shared.keptTasks active ∨ ∃ k device,
        (c.shared.refreshTasks c.tasks.length active).2[k]? = some device ∧
          handle = c.tasks.length + k ∧ device.endpointId.toLowercase = key := by
    rw [hStep]
    exact Node.mem_refreshTasks hInv.keys
  have hSame (handle : Nat) (found : Task Id) (hFound : c.tasks[handle]? = some found) :
      ∃ after, d.tasks[handle]? = some after ∧ after.looping = found.looping := by
    rw [hStep]
    exact looping_after _ hTask rfl hFound
  rw [hAfter.running_iff, hInv.loopLeft_eq_true, hInv.running_iff, refreshedKeys, List.mem_map]
  constructor
  · rintro ⟨handle, hEntry, after, hAfterTask, hLoops⟩
    rcases (hTable handle).mp hEntry with hKept | ⟨k, device, hFound, rfl, hKey⟩
    · obtain ⟨hOld, hActive⟩ := Node.mem_keptTasks.mp hKept
      obtain ⟨found, hFound⟩ : ∃ found, c.tasks[handle]? = some found :=
        ⟨_, List.getElem?_eq_getElem (hInv.lt_of_mem hOld)⟩
      obtain ⟨same, hSameTask, hLooping⟩ := hSame handle found hFound
      obtain rfl := Option.some.inj (hAfterTask.symm.trans hSameTask)
      exact ⟨hActive, Or.inl ⟨handle, hOld, found, hFound, hLooping ▸ hLoops⟩⟩
    · have hDevice := hSpawning.devices device (List.mem_of_getElem? hFound)
      refine ⟨⟨device, hDevice, hKey⟩, Or.inr ⟨fun hOld => ?_, rfl⟩⟩
      -- an old entry of the key would have been kept, next to the new one
      obtain ⟨old, hOld⟩ := mem_keys.mp hOld
      have hKept := (hTable old).mpr (Or.inl (Node.mem_keptTasks.mpr ⟨hOld, device, hDevice, hKey⟩))
      have hLt := hInv.lt_of_mem hOld
      have hOne := (lookup_eq_some_iff_mem hAfter.keys).mpr hKept
      rw [(lookup_eq_some_iff_mem hAfter.keys).mpr hEntry, Option.some.injEq] at hOne
      omega
  · rintro ⟨⟨device, hDevice, hKey⟩, hLoop⟩
    rcases hLoop with ⟨handle, hOld, found, hFound, hLoops⟩ | ⟨hMissing, _⟩
    · obtain ⟨after, hAfterTask, hLooping⟩ := hSame handle found hFound
      refine ⟨handle, (hTable handle).mpr (Or.inl ?_), after, hAfterTask, hLooping ▸ hLoops⟩
      exact Node.mem_keptTasks.mpr ⟨hOld, device, hDevice, hKey⟩
    · have hIn := hSpawning.found device hDevice
      rw [hKey] at hIn
      obtain ⟨handle, hEntry⟩ := mem_keys.mp hIn
      have hNew : (key, handle) ∈ d.shared.connectTasks := hStep ▸ hEntry
      refine ⟨handle, hNew, ?_⟩
      rcases (hTable handle).mp hNew with hKept | ⟨k, device', hFound, rfl, _⟩
      · exact (hMissing (mem_keys.mpr ⟨handle, (Node.mem_keptTasks.mp hKept).1⟩)).elim
      · refine ⟨⟨[.deviceStillActive device'.endpointId device'.relayUrl], .returned true⟩, ?_,
          List.cons_ne_nil _ _⟩
        rw [hStep]
        simp only [getElem?_turn_spawned, Call.spawns, List.getElem?_map, hFound, Option.map_some]

theorem running_after_failed_read {c : NodeConfig Id} {t : Nat} {rest : List (Call Id)}
    {wait : Wait Id} {d : NodeConfig Id} {key : String} (hInv : LoopsBooked c)
    (hAfter : LoopsBooked d) (hTask : c.tasks[t]? = some ⟨.refresh :: rest, wait⟩)
    (hStep : d = ⟨c.shared, c.tasks.set t ⟨rest, wait⟩ ++ []⟩) :
    Running key d ↔ key ∈ refreshedKeys c none ∧ loopLeft c none key = true := by
  have hSame (handle : Nat) (found : Task Id) (hFound : c.tasks[handle]? = some found) :
      ∃ after, d.tasks[handle]? = some after ∧ after.looping = found.looping := by
    rw [hStep]
    exact looping_after _ hTask rfl hFound
  have hTable : d.shared.connectTasks = c.shared.connectTasks := by rw [hStep]
  rw [hAfter.running_iff, hInv.loopLeft_eq_true, hInv.running_iff, refreshedKeys, hTable]
  simp only [Option.isSome_none, Bool.false_eq_true, and_false, or_false]
  constructor
  · rintro ⟨handle, hEntry, after, hAfterTask, hLoops⟩
    obtain ⟨found, hFound⟩ : ∃ found, c.tasks[handle]? = some found :=
      ⟨_, List.getElem?_eq_getElem (hInv.lt_of_mem hEntry)⟩
    obtain ⟨same, hSameTask, hLooping⟩ := hSame handle found hFound
    obtain rfl := Option.some.inj (hAfterTask.symm.trans hSameTask)
    exact ⟨mem_keys.mpr ⟨handle, hEntry⟩, handle, hEntry, found, hFound, hLooping ▸ hLoops⟩
  · rintro ⟨_, handle, hEntry, found, hFound, hLoops⟩
    obtain ⟨after, hAfterTask, hLooping⟩ := hSame handle found hFound
    exact ⟨handle, hEntry, after, hAfterTask, hLooping ▸ hLoops⟩

variable [EndpointKeys Id] [DecidableEq Id]

theorem Task.turn_refreshTasks {n n' : Node Id} {self fresh : Nat} {rest : List (Call Id)}
    {wait : Wait Id} {active : List PairedDevice} {input : Input} {task' : Task Id}
    {spawned : List (Task Id)}
    (h : Task.turn n self fresh ⟨.refreshTasks active :: rest, wait⟩ input =
      some (n', task', spawned)) :
    n' = (n.refreshTasks fresh active).1 ∧ task' = ⟨rest, wait⟩ ∧
      spawned = Call.spawns n fresh (.refreshTasks active) := by
  cases input <;> simp only [turn, atAwait, Call.exec, Call.isAwait, List.head?_cons,
    Option.all_some, Bool.and_false, Bool.false_eq_true, if_false, if_true, reduceCtorEq,
    Option.some.injEq, Prod.mk.injEq] at h
  obtain ⟨rfl, rfl, rfl⟩ := h
  exact ⟨rfl, rfl, rfl⟩

/-- The step at which `refresh` returns, with the list it read or without one. -/
theorem refreshReturn_cases {c d : NodeConfig Id} {l : NodeLabel Id}
    {read : Option (List PairedDevice)} (hReturn : refreshReturn c l = some read)
    (hStep : step c l = some d) : ∃ (t : Nat) (rest : List (Call Id)) (wait : Wait Id),
      (∃ active, read = some active ∧
        c.tasks[t]? = some ⟨.refreshTasks active :: rest, wait⟩ ∧
        d = ⟨(c.shared.refreshTasks c.tasks.length active).1, c.tasks.set t ⟨rest, wait⟩ ++
          Call.spawns c.shared c.tasks.length (.refreshTasks active)⟩) ∨
      (read = none ∧ c.tasks[t]? = some ⟨.refresh :: rest, wait⟩ ∧
        d = ⟨c.shared, c.tasks.set t ⟨rest, wait⟩ ++ []⟩) := by
  cases l with
  | call command => cases hReturn
  | restart restart => cases hReturn
  | turn t input =>
      obtain ⟨⟨todo, wait⟩, n', task', spawned, hTask, hTurn, rfl⟩ :=
        (Execution.Pool.next_turn_eq_some _).mp hStep
      have hTurn' : Task.turn c.shared t c.tasks.length ⟨todo, wait⟩ input =
        some (n', task', spawned) := hTurn
      simp only [refreshReturn] at hReturn
      split at hReturn
      · next active hCall =>
          obtain ⟨task, rest, hSome, hTodo⟩ := nextCall_eq_some.mp hCall
          obtain rfl := Option.some.inj (hTask.symm.trans hSome)
          obtain rfl : todo = .refreshTasks active :: rest := hTodo
          refine ⟨t, rest, wait, Or.inl ⟨active, (Option.some.inj hReturn).symm, hTask, ?_⟩⟩
          obtain ⟨rfl, rfl, rfl⟩ := Task.turn_refreshTasks hTurn'
          rfl
      · next hCall =>
          obtain ⟨task, rest, hSome, hTodo⟩ := nextCall_eq_some.mp hCall
          obtain rfl := Option.some.inj (hTask.symm.trans hSome)
          obtain rfl : todo = .refresh :: rest := hTodo
          refine ⟨t, rest, wait, Or.inr ⟨(Option.some.inj hReturn).symm, hTask, ?_⟩⟩
          simp only [Task.turn, Call.exec, if_false, reduceCtorEq, Option.some.injEq,
            Prod.mk.injEq] at hTurn'
          obtain ⟨rfl, rfl, rfl⟩ := hTurn'
          rfl
      · cases hReturn

/-- Whenever `refresh` returns, every active device has a connect loop and only
connectable ones have, if and only if `refresh` could rely on what it found. -/
theorem loops_match_after_refresh_iff {restart : Restart Id} {file : List PairedDevice}
    {ls : List (NodeLabel Id)} {l : NodeLabel Id} {c d : NodeConfig Id}
    {read : Option (List PairedDevice)} (hRun : exec step (started restart file) ls = some c)
    (hReturn : refreshReturn c l = some read) (hStep : step c l = some d) :
    LoopsMatch d ↔ RefreshesWell c read := by
  have hInv : LoopsBooked c :=
    Execution.exec_invariant (fun _ _ _ hInv hStep => loopsBooked_step hInv hStep) hRun
      (loopsBooked_started restart file)
  have hAfter := loopsBooked_step hInv hStep
  obtain ⟨hFile, hRunning⟩ : d.shared.file = c.shared.file ∧ ∀ key, Running key d ↔
      key ∈ refreshedKeys c read ∧ loopLeft c read key = true := by
    obtain ⟨t, rest, wait, ⟨active, rfl, hTask, hNext⟩ | ⟨rfl, hTask, hNext⟩⟩ :=
      refreshReturn_cases hReturn hStep
    · exact ⟨by rw [hNext]; rfl, fun key => running_after_refreshTasks hInv hAfter hTask hNext⟩
    · exact ⟨by rw [hNext], fun key => running_after_failed_read hInv hAfter hTask hNext⟩
  have hConnectable (key : String) : Connectable key d.shared ↔ Connectable key c.shared := by
    rw [Connectable, Connectable, hFile]
  rw [LoopsMatch, RefreshesWell, hFile]
  simp only [hRunning, hConnectable, and_imp]

end Refresh

section Devices

/-- Alice has lost her identity, so Bob's record is stale when its loop starts,
which ends. Then she joins Bob again. -/
def repaired : List (NodeLabel HexId) :=
  goes 0 2 ++ goes 1 1 ++
    [.call (.joinPairing (some ⟨1, "pair", toStr bob, none⟩)),
      .turn 2 (.connected [1, 2, 3] 7 "s")] ++
    goes 2 3 ++ [.turn 2 (.message (.pairingInfo (ourInfo (desktop bob) [1, 2, 3])))] ++ goes 2 5

theorem loops_match_after_refresh_iff_first : ∃ c,
    exec step (started (.onIdentity (desktop alice)) [pairedRecord bob]) (goes 0 1) = some c ∧
      ∃ d, step c (.turn 0 (.go 0)) = some d ∧ LoopsMatch d := by
  have hRuns : ∃ c,
      exec step (started (.onIdentity (desktop alice)) [pairedRecord bob]) (goes 0 1) = some c ∧
        refreshReturn c (.turn 0 (.go 0)) = some (some [pairedRecord bob]) ∧
        (step c (.turn 0 (.go 0))).isSome = true ∧ RefreshesWell c (some [pairedRecord bob]) := by
    decide
  obtain ⟨c, hRun, hReturn, hSome, hWell⟩ := hRuns
  obtain ⟨d, hStep⟩ := Option.isSome_iff_exists.mp hSome
  exact ⟨c, hRun, d, hStep, (loops_match_after_refresh_iff hRun hReturn hStep).mpr hWell⟩

/-- Bob is active again, and has no connect loop. -/
theorem repaired_without_loop : ∃ c,
    exec step (started ⟨desktop mallory, true, "default"⟩ [pairedRecord bob]) repaired = some c ∧
      (refreshReturn c (.turn 2 (.go 0))).isSome = true ∧
      ∃ d, step c (.turn 2 (.go 0)) = some d ∧
        (∃ device ∈ d.shared.file, device.endpointId = toStr bob ∧
          device.pairingStatus.isActive = true) ∧ ¬ Running (toStr bob) d := by
  decide +kernel

end Devices

end AltSendme
