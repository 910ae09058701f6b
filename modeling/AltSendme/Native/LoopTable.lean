import AltSendme.Native.Abort

/-! The table of connect loops against the tasks. A loop that can still run has
the entry of its key, and an entry is of no other key's loop, no timer and no
aborted handle. That a loop has ended, the table does not know. -/
namespace AltSendme

variable {Id : Type}
open Execution.Pool (getElem?_call_old getElem?_after_call getElem?_after_turn getElem?_turn_self
  getElem?_turn_other getElem?_turn_spawned)

section Table
/-! What `refresh` does to the table. -/

theorem mem_keys {tasks : List (String × Nat)} {key : String} :
    key ∈ tasks.map Prod.fst ↔ ∃ handle, (key, handle) ∈ tasks := by
  simp

theorem lookup_eq_some_iff_mem {tasks : List (String × Nat)}
    (hKeys : (tasks.map Prod.fst).Nodup) {key : String} {handle : Nat} :
    tasks.lookup key = some handle ↔ (key, handle) ∈ tasks := by
  induction tasks with
  | nil => simp
  | cons entry rest ih =>
      obtain ⟨other, handle'⟩ := entry
      rw [List.map_cons, List.nodup_cons] at hKeys
      by_cases hSame : key = other
      · subst hSame
        simp only [List.lookup_cons_self, Option.some.injEq, List.mem_cons, Prod.mk.injEq,
          true_and]
        constructor
        · exact fun hHandle => Or.inl hHandle.symm
        · rintro (hHandle | hRest)
          · exact hHandle.symm
          · exact (hKeys.1 (mem_keys.mpr ⟨handle, hRest⟩)).elim
      · have hOther : (key == other) = false := by simpa using hSame
        simp only [List.lookup_cons, hOther, ih hKeys.2]
        simp [hSame]

/-- The entries of the loops that are spawned for `spawned`. -/
def spawnedEntries (fresh : Nat) (spawned : List PairedDevice) : List (String × Nat) :=
  (spawned.zipIdx fresh).map fun entry => (entry.1.endpointId.toLowercase, entry.2)

/-- The new entries are the spawned devices, numbered in order from the first free task. -/
theorem mem_spawnedEntries {fresh : Nat} {spawned : List PairedDevice} {key : String}
    {handle : Nat} : (key, handle) ∈ spawnedEntries fresh spawned ↔
      ∃ k d, spawned[k]? = some d ∧ handle = fresh + k ∧ d.endpointId.toLowercase = key := by
  simp only [spawnedEntries, List.mem_map, Prod.mk.injEq, Prod.exists]
  constructor
  · rintro ⟨d, index, hMem, hKey, rfl⟩
    obtain ⟨hLow, hFound⟩ := List.mem_zipIdx_iff_le_and_getElem?_sub.mp hMem
    exact ⟨index - fresh, d, hFound, by omega, hKey⟩
  · rintro ⟨k, d, hFound, rfl, hKey⟩
    refine ⟨d, fresh + k, List.mem_zipIdx_iff_le_and_getElem?_sub.mpr ⟨by omega, ?_⟩, hKey, rfl⟩
    rwa [Nat.add_sub_cancel_left]

/-- The table while `refresh` walks the devices `walked`. -/
structure Spawning (fresh : Nat) (kept : List (String × Nat)) (walked : List PairedDevice)
    (acc : List (String × Nat) × List PairedDevice) : Prop where
  table : acc.1 = kept ++ spawnedEntries fresh acc.2
  keys : (acc.1.map Prod.fst).Nodup
  devices : ∀ d ∈ acc.2, d ∈ walked
  found : ∀ d ∈ walked, d.endpointId.toLowercase ∈ acc.1.map Prod.fst

/-- Walking past one more device keeps the walk's books. -/
theorem Spawning.next {fresh : Nat} {kept : List (String × Nat)} {walked : List PairedDevice}
    {acc : List (String × Nat) × List PairedDevice} (h : Spawning fresh kept walked acc)
    (d : PairedDevice) :
    Spawning fresh kept (walked ++ [d]) (Node.spawnConnectTask fresh acc d) := by
  unfold Node.spawnConnectTask
  dsimp only
  split
  · next hFound =>
      refine ⟨h.table, h.keys, fun d' hMem => List.mem_append_left _ (h.devices d' hMem), ?_⟩
      intro d' hMem
      rcases List.mem_append.mp hMem with hOld | hNew
      · exact h.found d' hOld
      · obtain rfl := List.mem_singleton.mp hNew
        obtain ⟨handle, hHandle⟩ := Option.isSome_iff_exists.mp hFound
        exact mem_keys.mpr ⟨handle, (lookup_eq_some_iff_mem h.keys).mp hHandle⟩
  · next hMissing =>
      have hKey : d.endpointId.toLowercase ∉ acc.1.map Prod.fst := by
        intro hMem
        obtain ⟨handle, hEntry⟩ := mem_keys.mp hMem
        exact hMissing (by rw [(lookup_eq_some_iff_mem h.keys).mpr hEntry]; rfl)
      refine ⟨?_, ?_, ?_, ?_⟩
      · rw [h.table, List.append_assoc, spawnedEntries, spawnedEntries, List.zipIdx_append]
        simp
      · rw [List.map_append, List.nodup_append]
        refine ⟨h.keys, by simp, ?_⟩
        rintro key hMem _ hNew rfl
        obtain rfl : key = d.endpointId.toLowercase := by simpa using hNew
        exact hKey hMem
      · intro d' hMem
        rcases List.mem_append.mp hMem with hOld | hNew
        · exact List.mem_append_left _ (h.devices d' hOld)
        · exact List.mem_append_right _ hNew
      · intro d' hMem
        rw [List.map_append, List.mem_append]
        rcases List.mem_append.mp hMem with hOld | hNew
        · exact Or.inl (h.found d' hOld)
        · obtain rfl := List.mem_singleton.mp hNew
          exact Or.inr (by simp)

/-- Walking past all devices keeps the walk's books. -/
theorem Spawning.foldl {fresh : Nat} {kept : List (String × Nat)}
    {walked devices : List PairedDevice} {acc : List (String × Nat) × List PairedDevice}
    (h : Spawning fresh kept walked acc) :
    Spawning fresh kept (walked ++ devices)
      (devices.foldl (Node.spawnConnectTask fresh) acc) := by
  induction devices generalizing walked acc with
  | nil => simpa using h
  | cons d rest ih =>
      have hNext := ih (h.next d)
      rwa [List.append_assoc] at hNext

namespace Node

/-- The entries whose device is in the list `refresh` read. -/
def keptTasks (n : Node Id) (active : List PairedDevice) : List (String × Nat) :=
  n.connectTasks.filter fun entry =>
    (active.map (·.endpointId.toLowercase)).contains entry.1

/-- A refresh walks past all active devices. -/
theorem refreshTasks_spawning (n : Node Id) (fresh : Nat) (active : List PairedDevice)
    (hKeys : (n.connectTasks.map Prod.fst).Nodup) :
    Spawning fresh (n.keptTasks active) active
      ((n.refreshTasks fresh active).1.connectTasks, (n.refreshTasks fresh active).2) := by
  have hStart : Spawning fresh (n.keptTasks active) [] (n.keptTasks active, []) :=
    ⟨by simp [spawnedEntries], hKeys.sublist (List.filter_sublist.map _), by simp, by simp⟩
  exact hStart.foldl

/-- A refresh keeps exactly the loops of the active devices. -/
theorem mem_keptTasks {n : Node Id} {active : List PairedDevice} {key : String} {handle : Nat} :
    (key, handle) ∈ n.keptTasks active ↔
      (key, handle) ∈ n.connectTasks ∧ ∃ d ∈ active, d.endpointId.toLowercase = key := by
  simp [keptTasks]

/-- The table after `refresh`: the entries it kept and those of its new loops. -/
theorem mem_refreshTasks {n : Node Id} {fresh : Nat} {active : List PairedDevice} {key : String}
    {handle : Nat} (hKeys : (n.connectTasks.map Prod.fst).Nodup) :
    (key, handle) ∈ (n.refreshTasks fresh active).1.connectTasks ↔
      (key, handle) ∈ n.keptTasks active ∨ ∃ k d,
        (n.refreshTasks fresh active).2[k]? = some d ∧ handle = fresh + k ∧
          d.endpointId.toLowercase = key := by
  have hTable : (n.refreshTasks fresh active).1.connectTasks = n.keptTasks active ++
      spawnedEntries fresh (n.refreshTasks fresh active).2 :=
    (n.refreshTasks_spawning fresh active hKeys).table
  rw [hTable, List.mem_append, mem_spawnedEntries]

/-- A refresh aborts exactly the loops of devices that are no longer active. -/
theorem mem_refreshTasks_aborted {n : Node Id} {fresh : Nat} {active : List PairedDevice}
    {handle : Nat} : handle ∈ (n.refreshTasks fresh active).1.aborted ↔ handle ∈ n.aborted ∨
      ∃ key, (key, handle) ∈ n.connectTasks ∧ ∀ d ∈ active, d.endpointId.toLowercase ≠ key := by
  simp [refreshTasks]

end Node

end Table

/-- The device of a connect loop, by what the loop awaits. -/
def Wait.looping : Wait Id → Option String
  | .connecting endpointId _ | .recognizing endpointId _ _ | .outboundAccept endpointId _ _
  | .outboundRead endpointId _ _ | .backoff endpointId _ => some endpointId
  | _ => none

/-- The check at the head of a connect loop. -/
def Call.looping : Call Id → Option String
  | .deviceStillActive endpointId _ => some endpointId
  | _ => none

/-- The devices this task is a connect loop of, until it ends. -/
def Task.looping (task : Task Id) : List String :=
  task.todo.filterMap Call.looping ++ task.wait.looping.toList

section Looping

/-- A task loops for a device if a call of it or its wait does. -/
theorem Task.mem_looping {task : Task Id} {endpointId : String} :
    endpointId ∈ task.looping ↔
      (∃ call ∈ task.todo, call.looping = some endpointId) ∨
        task.wait.looping = some endpointId := by
  simp [looping]

theorem Task.looping_plain {todo : List (Call Id)} (h : ∀ call ∈ todo, call.looping = none)
    (wait : Wait Id) : Task.looping ⟨todo, wait⟩ = wait.looping.toList := by
  rw [looping, List.filterMap_eq_nil_iff.mpr h, List.nil_append]

theorem Call.looping_of_isUnpairing {call : Call Id} (h : call.isUnpairing = true) :
    call.looping = none := by
  unfold isUnpairing at h
  split at h <;> first | rfl | cases h

variable [EndpointKeys Id]

/-- An answer to Recognition starts no loop. -/
theorem onRecognition_looping (conn : Connection Id) (signature : String) :
    ∀ call ∈ onRecognition conn signature, call.looping = none := by
  unfold onRecognition
  split <;> simp [Call.looping]

/-- An answer to Forget starts no loop. -/
theorem onForget_looping (conn : Connection Id) (signature : String) (paired : Bool) :
    ∀ call ∈ onForget conn signature paired, call.looping = none := by
  unfold onForget
  split <;> simp [Call.looping]

/-- The pairing loop serves no connect loop. -/
theorem onPairingMessage_looping (conn : Connection Id) (s : PairingSession) (m : ControlMessage) :
    (onPairingMessage conn s m).looping = [] := by
  have hPlain {todo : List (Call Id)} {s' : PairingSession}
      (h : ∀ call ∈ todo, call.looping = none) : Task.looping ⟨todo, .pairing conn s'⟩ = [] :=
    Task.looping_plain h _
  cases m with
  | pairingInfo info =>
      unfold onPairingMessage
      dsimp only
      split <;> exact hPlain (by simp [Call.looping])
  | recognition signature =>
      refine hPlain fun call hMem => ?_
      rcases List.mem_append.mp hMem with hMem | hMem
      · exact onRecognition_looping conn signature call hMem
      · obtain rfl := List.mem_singleton.mp hMem
        rfl
  | forget signature =>
      refine hPlain fun call hMem => ?_
      rcases List.mem_append.mp hMem with hMem | hMem
      · exact onForget_looping conn signature false call hMem
      · obtain rfl := List.mem_singleton.mp hMem
        rfl
  | _ => exact hPlain (by simp [Call.looping])

/-- The paired loop serves no connect loop. -/
theorem onPairedMessage_looping (conn : Connection Id) (m : ControlMessage) :
    (onPairedMessage conn m).looping = [] := by
  cases m with
  | recognition signature => exact Task.looping_plain (onRecognition_looping conn signature) _
  | forget signature =>
      unfold onPairedMessage
      dsimp only
      split
      · refine Task.looping_plain (fun call hMem => ?_) _
        rcases List.mem_append.mp hMem with hMem | hMem
        · exact onForget_looping conn signature true call hMem
        · obtain rfl := List.mem_singleton.mp hMem
          rfl
      · rfl
  | _ => rfl

/-- The outbound loop stays the loop of its device. -/
theorem onOutboundMessage_looping (endpointId : String) (relayUrl : Option String)
    (conn : Connection Id) (m : ControlMessage) :
    (onOutboundMessage endpointId relayUrl conn m).looping = [endpointId] := by
  cases m with
  | recognition signature => exact Task.looping_plain (onRecognition_looping conn signature) _
  | _ => rfl

/-- A joiner is nobody's connect loop. -/
theorem onHostInfo_looping (conn : Connection Id) (relayUrl : Option String) (m : ControlMessage) :
    (onHostInfo conn relayUrl m).looping = [] := by
  cases m with
  | pairingInfo info =>
      unfold onHostInfo
      dsimp only
      split <;> rfl
  | _ => rfl

/-- An answer makes no task a connect loop that was none. -/
theorem Wait.looping_of_resume {n : Node Id} {wait : Wait Id} {input : Input} {task' : Task Id}
    {endpointId : String} (h : wait.resume n input = some task')
    (hMem : endpointId ∈ task'.looping) : wait.looping = some endpointId := by
  have hNil {task : Task Id} (hNone : task.looping = []) (hIn : endpointId ∈ task.looping) :
      wait.looping = some endpointId := by
    rw [hNone] at hIn
    cases hIn
  cases wait <;> cases input <;>
    simp only [resume, reduceCtorEq, Option.some.injEq, Option.map_eq_some_iff] at h
  case pairing.message conn s m =>
    subst h
    exact hNil (onPairingMessage_looping conn s m) hMem
  case pairing.closed conn s =>
    subst h
    refine hNil ?_ hMem
    unfold pairingLoopEnded
    split <;> split <;> rfl
  case pairedRead.message conn m =>
    subst h
    exact hNil (onPairedMessage_looping conn m) hMem
  case outboundRead.message other relayUrl conn m =>
    subst h
    rw [onOutboundMessage_looping, List.mem_singleton] at hMem
    rw [hMem]
    rfl
  case joinRead.message conn relayUrl m =>
    subst h
    exact hNil (onHostInfo_looping conn relayUrl m) hMem
  case connecting.connected =>
    obtain ⟨_, _, rfl⟩ := h
    obtain rfl := List.mem_singleton.mp hMem
    rfl
  case notifyWait.go =>
    obtain ⟨_, _, rfl⟩ := h
    cases hMem
  case notifyConnect.connected fallbackPresence _ _ _ =>
    subst h
    cases fallbackPresence <;> cases hMem
  case supervising.go =>
    split at h <;> cases h <;> cases hMem
  all_goals
    subst h
    first
      | (obtain rfl := List.mem_singleton.mp hMem; rfl)
      | cases hMem

/-- Nor does a call. -/
theorem Call.Moves.looping {n : Node Id} {fresh : Nat} {wait : Wait Id} {rest : List (Call Id)}
    {call : Call Id} {task' : Task Id} {endpointId : String}
    (h : call.Moves n fresh wait rest task') (hMem : endpointId ∈ task'.looping) :
    endpointId ∈ Task.looping ⟨call :: rest, wait⟩ := by
  have hRest (pushed : List (Call Id)) (wait' : Wait Id)
      (hWait : wait'.looping = none ∨ wait'.looping = wait.looping)
      (hPushed : ∀ c ∈ pushed, c.looping = none)
      (hIn : endpointId ∈ Task.looping ⟨pushed ++ rest, wait'⟩) :
      endpointId ∈ Task.looping ⟨call :: rest, wait⟩ := by
    rw [Task.mem_looping] at hIn ⊢
    rcases hIn with ⟨c, hc, hLooping⟩ | hIn
    · rcases List.mem_append.mp hc with hNew | hOld
      · rw [hPushed c hNew] at hLooping
        cases hLooping
      · exact Or.inl ⟨c, List.mem_cons_of_mem call hOld, hLooping⟩
    · rcases hWait with hNone | hSame
      · cases hNone.symm.trans hIn
      · exact Or.inr (hSame.symm.trans hIn)
  have hResumed (cont : StoreCont Id) (reply : Except String (Option PairedDevice))
      (hIn : endpointId ∈ (cont.resume rest wait reply).looping) :
      endpointId ∈ Task.looping ⟨call :: rest, wait⟩ := by
    rcases cont.resume_eq rest wait reply with ⟨_, hNext⟩ | ⟨pushed, hNext, hAll⟩
    · rw [hNext] at hIn
      cases hIn
    · rw [hNext] at hIn
      exact hRest pushed wait (Or.inr rfl)
        (fun c hc => looping_of_isUnpairing (List.all_eq_true.mp hAll c hc)) hIn
  cases h with
  | onward => exact hRest [] wait (Or.inr rfl) (by simp) hMem
  | stopped => cases hMem
  | gatePaired conn isOpen =>
      exact hRest _ _ (Or.inl rfl) (by simp [registerInbound, setSession, Call.looping]) hMem
  | gatePassed conn => exact hRest [] _ (Or.inl rfl) (by simp) hMem
  | completed conn s info now => cases hMem
  | invited conn other s invite hWait =>
      exact hRest [_, _] _ (Or.inl rfl) (by simp [Call.looping]) hMem
  | storeKept op cont reply => exact hResumed cont reply hMem
  | storeWritten op base cont reply => exact hResumed cont reply hMem
  | connecting other relayUrl =>
      rw [Task.mem_looping] at hMem ⊢
      left
      rcases hMem with ⟨c, hc, hLooping⟩ | hWait
      · exact ⟨c, List.mem_cons_of_mem _ hc, hLooping⟩
      · exact ⟨_, List.mem_cons_self, hWait⟩
  | _ => exact hRest [_] wait (Or.inr rfl) (by simp [Call.looping]) hMem

variable [DecidableEq Id]

/-- A turn makes no task a connect loop that was none. -/
theorem Task.looping_of_turn {n n' : Node Id} {self fresh : Nat} {task task' : Task Id}
    {input : Input} {spawned : List (Task Id)} {endpointId : String}
    (hTurn : task.turn n self fresh input = some (n', task', spawned))
    (hMem : endpointId ∈ task'.looping) : endpointId ∈ task.looping := by
  rcases Task.turn_eq_some hTurn with ⟨_, _, _, rfl, _⟩ | ⟨_, _, _, hNext⟩ |
    ⟨call, rest, hTodo, hExec⟩
  · cases hMem
  · exact Task.mem_looping.mpr (Or.inr (Wait.looping_of_resume hNext hMem))
  · have hBefore := (Call.exec_moves hExec).looping hMem
    rwa [← hTodo] at hBefore

omit [EndpointKeys Id] [DecidableEq Id] in
/-- Only `refresh` starts connect loops. -/
theorem Command.Starts.looping {command : Command Id} {task : Task Id}
    (h : command.Starts task) : task.looping = [] := by
  cases h <;> rfl

end Looping

section Books
variable [EndpointKeys Id]

/-- What a turn does to the table of loops and to the aborted handles. -/
structure Rebooks (n n' : Node Id) (fresh : Nat) (spawned : List (Task Id)) : Prop where
  keys : (n'.connectTasks.map Prod.fst).Nodup
  table : ∀ key handle, (key, handle) ∈ n'.connectTasks → (key, handle) ∈ n.connectTasks ∨
    ∃ k new endpointId, handle = fresh + k ∧ spawned[k]? = some new ∧
      new.looping = [endpointId] ∧ endpointId.toLowercase = key
  dropped : ∀ key handle, (key, handle) ∈ n.connectTasks →
    (key, handle) ∈ n'.connectTasks ∨ handle ∈ n'.aborted
  spawned : ∀ k new endpointId, spawned[k]? = some new → endpointId ∈ new.looping →
    (endpointId.toLowercase, fresh + k) ∈ n'.connectTasks
  aborted : ∀ handle, handle ∈ n.aborted → handle ∈ n'.aborted
  reason : ∀ handle, handle ∈ n'.aborted → handle ∈ n.aborted ∨
    n.pairingExpireTask = some handle ∨
      ∃ key, (key, handle) ∈ n.connectTasks ∧ (key, handle) ∉ n'.connectTasks

omit [EndpointKeys Id] in
/-- A step that leaves table and aborts alone keeps the books. -/
theorem Rebooks.same {n n' : Node Id} {fresh : Nat} {spawned : List (Task Id)}
    (hKeys : (n.connectTasks.map Prod.fst).Nodup) (hTable : n'.connectTasks = n.connectTasks)
    (hAborted : n'.aborted = n.aborted) (hSpawned : ∀ new ∈ spawned, new.looping = []) :
    Rebooks n n' fresh spawned where
  keys := by rwa [hTable]
  table := fun key handle hMem => Or.inl (hTable ▸ hMem)
  dropped := fun key handle hMem => Or.inl (hTable.symm ▸ hMem)
  spawned := by
    intro k new endpointId hNew hMem
    rw [hSpawned new (List.mem_of_getElem? hNew)] at hMem
    cases hMem
  aborted := fun handle hMem => hAborted.symm ▸ hMem
  reason := fun handle hMem => Or.inl (hAborted ▸ hMem)

variable [DecidableEq Id]

omit [EndpointKeys Id] [DecidableEq Id] in
/-- A refresh books every loop it starts and strikes every loop it ends. -/
theorem rebooks_refreshTasks {n : Node Id} {fresh : Nat} {active : List PairedDevice}
    (hKeys : (n.connectTasks.map Prod.fst).Nodup) :
    Rebooks n (n.refreshTasks fresh active).1 fresh
      (Call.spawns n fresh (.refreshTasks active)) := by
  have hSpawning := n.refreshTasks_spawning fresh active hKeys
  refine ⟨hSpawning.keys, ?_, ?_, ?_, ?_, ?_⟩
  · intro key handle hMem
    refine ((Node.mem_refreshTasks hKeys).mp hMem).imp
      (fun hKept => (Node.mem_keptTasks.mp hKept).1) ?_
    rintro ⟨k, d, hFound, hHandle, hKey⟩
    exact ⟨k, ⟨[.deviceStillActive d.endpointId d.relayUrl], .returned true⟩, d.endpointId,
      hHandle, by simp [Call.spawns, hFound], rfl, hKey⟩
  · intro key handle hMem
    by_cases hActive : ∃ d ∈ active, d.endpointId.toLowercase = key
    · exact Or.inl ((Node.mem_refreshTasks hKeys).mpr
        (Or.inl (Node.mem_keptTasks.mpr ⟨hMem, hActive⟩)))
    · refine Or.inr (Node.mem_refreshTasks_aborted.mpr (Or.inr ⟨key, hMem, ?_⟩))
      exact fun d hd hKey => hActive ⟨d, hd, hKey⟩
  · intro k new endpointId hNew hMem
    simp only [Call.spawns, List.getElem?_map, Option.map_eq_some_iff] at hNew
    obtain ⟨d, hFound, rfl⟩ := hNew
    obtain rfl := List.mem_singleton.mp hMem
    exact (Node.mem_refreshTasks hKeys).mpr (Or.inr ⟨k, d, hFound, rfl, rfl⟩)
  · exact fun handle hMem => Node.mem_refreshTasks_aborted.mpr (Or.inl hMem)
  · intro handle hMem
    refine (Node.mem_refreshTasks_aborted.mp hMem).imp_right ?_
    rintro ⟨key, hEntry, hOther⟩
    refine Or.inr ⟨key, hEntry, fun hStays => ?_⟩
    rcases (Node.mem_refreshTasks hKeys).mp hStays with hKept | ⟨k, d, hFound, _, hKey⟩
    · obtain ⟨_, d, hd, hKey⟩ := Node.mem_keptTasks.mp hKept
      exact hOther d hd hKey
    · exact hOther d (hSpawning.devices d (List.mem_of_getElem? hFound)) hKey

/-- One call keeps the books of the loops. -/
theorem Call.exec_rebooks {n n' : Node Id} {fresh : Nat} {wait : Wait Id} {rest : List (Call Id)}
    {call : Call Id} {input : Input} {task' : Task Id} {spawned : List (Task Id)}
    (hKeys : (n.connectTasks.map Prod.fst).Nodup)
    (h : call.exec n fresh wait rest input = some (n', task', spawned)) :
    Rebooks n n' fresh spawned := by
  have hChanges := Call.exec_changes h
  have hSpawns := Call.exec_spawns h
  cases call with
  | refreshTasks active =>
      cases input <;> simp only [Call.exec, reduceCtorEq, Option.some.injEq, Prod.mk.injEq] at h
      obtain ⟨rfl, _⟩ := h
      rw [hSpawns]
      exact rebooks_refreshTasks hKeys
  | spawnExpireTask =>
      obtain rfl : spawned = [⟨[], .sleeping⟩] := hSpawns
      cases hChanges
      exact .same hKeys rfl rfl (by simp [Task.looping, Wait.looping])
  | takeExpireTask =>
      obtain rfl : spawned = [] := hSpawns
      cases hChanges with
      | kept => exact .same hKeys rfl rfl (by simp)
      | expireTaken =>
          refine ⟨hKeys, fun _ _ => Or.inl, fun _ _ => Or.inl, by simp,
            fun _ => List.mem_append_left _, fun handle hMem => ?_⟩
          refine (List.mem_append.mp hMem).imp_right fun hTaken => Or.inl ?_
          exact Option.mem_toList.mp hTaken
  | removeConnectTask key =>
      obtain rfl : spawned = [] := hSpawns
      cases hChanges with
      | kept => exact .same hKeys rfl rfl (by simp)
      | connectTaskRemoved =>
          refine ⟨hKeys.sublist (List.filter_sublist.map _), ?_, ?_, by simp,
            fun _ => List.mem_append_left _, ?_⟩
          · exact fun other handle hMem => Or.inl (List.mem_of_mem_filter hMem)
          · intro other handle hMem
            by_cases hSame : other = key
            · subst hSame
              refine Or.inr (List.mem_append_right _ (Option.mem_toList.mpr ?_))
              exact (lookup_eq_some_iff_mem hKeys).mpr hMem
            · exact Or.inl (List.mem_filter.mpr ⟨hMem, by simpa using hSame⟩)
          · intro handle hMem
            refine (List.mem_append.mp hMem).imp_right fun hTaken => Or.inr ⟨key, ?_, by simp⟩
            exact (lookup_eq_some_iff_mem hKeys).mp (Option.mem_toList.mp hTaken)
  | managerShutdown =>
      obtain rfl : spawned = [] := hSpawns
      cases hChanges with
      | kept => exact .same hKeys rfl rfl (by simp)
      | managerStopped =>
          refine ⟨by simp, by simp, fun key handle hMem => ?_, by simp,
            fun _ => List.mem_append_left _, fun handle hMem => ?_⟩
          · exact Or.inr (List.mem_append_right _ (List.mem_map.mpr ⟨_, hMem, rfl⟩))
          · refine (List.mem_append.mp hMem).imp_right fun hOld => Or.inr ?_
            obtain ⟨⟨key, handle'⟩, hEntry, rfl⟩ := List.mem_map.mp hOld
            exact ⟨key, hEntry, by simp⟩
  | setPresence endpointId writer =>
      obtain rfl : spawned = [] := hSpawns
      cases hChanges with
      | kept => exact .same hKeys rfl rfl (by simp)
      | presence =>
          exact .same hKeys (n.setPresence_connectTasks endpointId writer.online)
            (n.setPresence_aborted endpointId writer.online) (by simp)
  | _ =>
      obtain rfl : spawned = [] := hSpawns
      cases hChanges <;> exact .same hKeys rfl rfl (by simp)

/-- The handle `take_expire_task` will abort was there, or the task stored it. -/
theorem Task.expireTask_of_turn {n n' : Node Id} {self fresh handle : Nat}
    {task task' : Task Id} {input : Input} {spawned : List (Task Id)}
    (hTurn : task.turn n self fresh input = some (n', task', spawned))
    (hExpire : n'.pairingExpireTask = some handle) :
    n.pairingExpireTask = some handle ∨ .putExpireTask handle ∈ task.todo := by
  rcases Task.turn_changes hTurn with rfl | ⟨call, rest, hTodo, hChanges, _⟩
  · exact Or.inl hExpire
  · cases hChanges with
    | expireTaken => cases hExpire
    | expirePut stored =>
        obtain rfl : stored = handle := Option.some.inj hExpire
        exact Or.inr (hTodo ▸ List.mem_cons_self)
    | presence endpointId writer =>
        rw [n.setPresence_pairingExpireTask endpointId writer.online] at hExpire
        exact Or.inl hExpire
    | _ => exact Or.inl hExpire

/-- One turn keeps the books of the loops. -/
theorem Task.rebooks_of_turn {n n' : Node Id} {self fresh : Nat} {task task' : Task Id}
    {input : Input} {spawned : List (Task Id)} (hKeys : (n.connectTasks.map Prod.fst).Nodup)
    (hTurn : task.turn n self fresh input = some (n', task', spawned)) :
    Rebooks n n' fresh spawned := by
  rcases Task.turn_eq_some hTurn with ⟨_, _, rfl, _, rfl⟩ | ⟨_, rfl, rfl, _⟩ |
    ⟨call, rest, _, hExec⟩
  · exact .same hKeys rfl rfl (by simp)
  · exact .same hKeys rfl rfl (by simp)
  · exact Call.exec_rebooks hKeys hExec

/-- The table of loops against the tasks: a loop that can still run has its
entry, an entry is of nobody else's loop, and no timer is taken for a loop. -/
structure LoopsBooked (c : NodeConfig Id) : Prop where
  handles : HandlesInBackground c
  keys : (c.shared.connectTasks.map Prod.fst).Nodup
  unique : ∀ key other handle, (key, handle) ∈ c.shared.connectTasks →
    (other, handle) ∈ c.shared.connectTasks → key = other
  booked : ∀ (t : Nat) (task : Task Id) (endpointId : String), c.tasks[t]? = some task →
    endpointId ∈ task.looping → t ∉ c.shared.aborted →
      (endpointId.toLowercase, t) ∈ c.shared.connectTasks
  kept : ∀ key handle, (key, handle) ∈ c.shared.connectTasks → handle ∉ c.shared.aborted
  timers : ∀ handle, (c.shared.pairingExpireTask = some handle ∨
      ∃ (t : Nat) (task : Task Id), c.tasks[t]? = some task ∧ .putExpireTask handle ∈ task.todo) →
    ∀ key, (key, handle) ∉ c.shared.connectTasks

/-- A start books no loop, as none runs. -/
theorem loopsBooked_started (restart : Restart Id) (file : List PairedDevice) :
    LoopsBooked (started restart file) where
  handles := handlesInBackground_started restart file
  keys := List.nodup_nil
  unique := nofun
  booked := by
    intro t task endpointId hTask hMem
    obtain rfl := List.mem_singleton.mp (List.mem_of_getElem? hTask)
    cases hMem
  kept := nofun
  timers := fun _ _ _ => nofun

omit [EndpointKeys Id] [DecidableEq Id] in
theorem LoopsBooked.lt_of_mem {c : NodeConfig Id} (h : LoopsBooked c) {key : String}
    {handle : Nat} (hMem : (key, handle) ∈ c.shared.connectTasks) : handle < c.tasks.length := by
  obtain ⟨task, hTask, _⟩ := h.handles.1 handle
    (Node.mem_handles.mpr (Or.inr (Or.inl (List.mem_map.mpr ⟨_, hMem, rfl⟩))))
  exact (List.getElem?_eq_some_iff.mp hTask).1

theorem loopsBooked_turn {c : NodeConfig Id} {t : Nat} {input : Input} {task task' : Task Id}
    {n' : Node Id} {spawned : List (Task Id)} (hInv : LoopsBooked c)
    (hHandles : HandlesInBackground ⟨n', c.tasks.set t task' ++ spawned⟩)
    (hTask : c.tasks[t]? = some task)
    (hTurn : task.turn c.shared t c.tasks.length input = some (n', task', spawned)) :
    LoopsBooked ⟨n', c.tasks.set t task' ++ spawned⟩ := by
  have hBooks := Task.rebooks_of_turn hInv.keys hTurn
  have hUnique (key other : String) (handle : Nat) (hMem : (key, handle) ∈ n'.connectTasks)
      (hOther : (other, handle) ∈ n'.connectTasks) : key = other := by
    rcases hBooks.table key handle hMem with hOld | ⟨k, new, id, rfl, hNew, hId, rfl⟩
    · rcases hBooks.table other handle hOther with hOld' | ⟨k, new, id, rfl, _⟩
      · exact hInv.unique key other handle hOld hOld'
      · have hLt := hInv.lt_of_mem hOld
        omega
    · rcases hBooks.table other _ hOther with hOld' | ⟨k', new', id', hSame, hNew', hId', rfl⟩
      · have hLt := hInv.lt_of_mem hOld'
        omega
      · obtain rfl : k = k' := by omega
        obtain rfl := Option.some.inj (hNew.symm.trans hNew')
        rw [List.singleton_inj.mp (hId.symm.trans hId')]
  have hTimers (handle : Nat) (hTimer : c.shared.pairingExpireTask = some handle ∨
      ∃ (u : Nat) (other : Task Id), c.tasks[u]? = some other ∧
        .putExpireTask handle ∈ other.todo) (key : String) : (key, handle) ∉ n'.connectTasks := by
    intro hMem
    rcases hBooks.table key handle hMem with hOld | ⟨k, new, id, rfl, _⟩
    · exact hInv.timers handle hTimer key hOld
    · have hLt : InBackground c (c.tasks.length + k) := by
        rcases hTimer with hExpire | ⟨u, other, hOther, hPut⟩
        · exact hInv.handles.1 _ (Node.mem_handles.mpr (Or.inr (Or.inr hExpire)))
        · exact hInv.handles.2 u other _ hOther hPut
      obtain ⟨found, hFound, _⟩ := hLt
      have := (List.getElem?_eq_some_iff.mp hFound).1
      omega
  refine ⟨hHandles, hBooks.keys, hUnique, ?_, ?_, ?_⟩
  · intro u found endpointId hFound hMem hAlive
    have hOld (other : Task Id) (hOther : c.tasks[u]? = some other)
        (hLooping : endpointId ∈ other.looping) :
        (endpointId.toLowercase, u) ∈ n'.connectTasks := by
      have hEntry := hInv.booked u other endpointId hOther hLooping fun hAborted =>
        hAlive (hBooks.aborted u hAborted)
      rcases hBooks.dropped _ _ hEntry with hKept | hAborted
      · exact hKept
      · exact (hAlive hAborted).elim
    rcases getElem?_after_turn hFound with ⟨rfl, _, rfl⟩ | ⟨_, hOther⟩ | ⟨hLow, hNew⟩
    · exact hOld task hTask (Task.looping_of_turn hTurn hMem)
    · exact hOld found hOther hMem
    · obtain ⟨k, rfl⟩ := Nat.exists_eq_add_of_le hLow
      rw [getElem?_turn_spawned] at hFound
      exact hBooks.spawned k found endpointId hFound hMem
  · intro key handle hMem hAborted
    rcases hBooks.reason handle hAborted with hOld | hExpire | ⟨other, hEntry, hGone⟩
    · rcases hBooks.table key handle hMem with hEntry | ⟨k, _, _, rfl, _⟩
      · exact hInv.kept key handle hEntry hOld
      · obtain ⟨found, hFound, _⟩ := hInv.handles.1 _ (Node.mem_handles.mpr (Or.inl hOld))
        have := (List.getElem?_eq_some_iff.mp hFound).1
        omega
    · exact hTimers handle (Or.inl hExpire) key hMem
    · rcases hBooks.table key handle hMem with hOld | ⟨k, _, _, rfl, _⟩
      · exact hGone (hInv.unique key other handle hOld hEntry ▸ hMem)
      · have := hInv.lt_of_mem hEntry
        omega
  · rintro handle (hExpire | ⟨u, found, hFound, hPut⟩)
    · rcases Task.expireTask_of_turn hTurn hExpire with hOld | hPut
      · exact hTimers handle (Or.inl hOld)
      · exact hTimers handle (Or.inr ⟨t, task, hTask, hPut⟩)
    · rcases getElem?_after_turn hFound with ⟨rfl, _, rfl⟩ | ⟨_, hOld⟩ | ⟨_, hNew⟩
      · rcases Task.putExpireTask_of_turn hTurn hPut with hPut | ⟨rfl, rfl⟩
        · exact hTimers handle (Or.inr ⟨_, task, hTask, hPut⟩)
        · intro key hMem
          rcases hBooks.table key _ hMem with hOld | ⟨k, new, id, _, hNew, hId, _⟩
          · have := hInv.lt_of_mem hOld
            omega
          · obtain rfl := List.mem_singleton.mp (List.mem_of_getElem? hNew)
            cases hId
      · exact hTimers handle (Or.inr ⟨u, found, hOld, hPut⟩)
      · have hCall := List.all_eq_true.mp (Task.spawned_new hTurn hNew).isFirst.1 _ hPut
        cases hCall

theorem loopsBooked_step {c d : NodeConfig Id} {l : NodeLabel Id} (hInv : LoopsBooked c)
    (hStep : step c l = some d) : LoopsBooked d := by
  have hHandles := handlesInBackground_step hInv.handles hStep
  cases l with
  | call command =>
      obtain rfl := Option.some.inj hStep
      refine ⟨hHandles, hInv.keys, hInv.unique, ?_, hInv.kept, ?_⟩
      · intro t task endpointId hTask hMem
        rcases getElem?_after_call hTask with hOld | ⟨_, rfl⟩
        · exact hInv.booked t task endpointId hOld hMem
        · have hNone : (nodePool.start command).looping = [] := command.starts.looping
          rw [hNone] at hMem
          cases hMem
      · rintro handle (hExpire | ⟨t, task, hTask, hPut⟩)
        · exact hInv.timers handle (Or.inl hExpire)
        · rcases getElem?_after_call hTask with hOld | ⟨_, rfl⟩
          · exact hInv.timers handle (Or.inr ⟨t, task, hOld, hPut⟩)
          · have hCall := List.all_eq_true.mp command.starts.isFirst.1 _ hPut
            cases hCall
  | restart restart =>
      obtain rfl := Option.some.inj hStep
      exact loopsBooked_started restart c.shared.file
  | turn t input =>
      obtain ⟨task, n', task', spawned, hTask, hTurn, rfl⟩ :=
        (Execution.Pool.next_turn_eq_some _).mp hStep
      exact loopsBooked_turn hInv hHandles hTask hTurn

end Books

end AltSendme
