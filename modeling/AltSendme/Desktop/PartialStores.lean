import AltSendme.Desktop.ReceiveCancel

/-! The partial stores that receives leave on the disk. A failed receive leaves
its directory, and the hash slot names the one the next receive may remove.
Each directory has one owner: a download under way, a removal, the slot, or a
call that emptied the slot and has not started yet. -/
namespace AltSendme.Desktop

open Execution (exec Meets)
open Execution.Pool (getElem?_after_call getElem?_after_turn getElem?_call_old getElem?_turn_self
  getElem?_turn_other)

namespace Task

def isStarting : Task → Bool
  | .receiving _ stage => stage.isStarting
  | _ => false

/-- A receive that has not returned, or a removal under way. -/
def isRunning : Task → Bool
  | .receiving _ (.finished _) | .receiving _ .refused => false
  | .receiving _ _ | .cleaning _ => true
  | _ => false

/-- The hash whose download runs in this call. -/
def downloads : Task → Option String
  | .receiving hash stage => if stage.isDownloading then hash else none
  | _ => none

/-- The hash whose directory this task is about to remove. -/
def removes : Task → Option String
  | .receiving _ (.removingStale staleHash) => some staleHash
  | .cleaning hash => some hash
  | _ => none

/-- The hash whose directory this task will remove, or hand to the slot. -/
def owns : Task → Option String
  | .receiving _ (.updating .ok) => none
  | .receiving hash stage => if stage.isActive then hash else none
  | .cleaning hash => some hash
  | _ => none

/-- The call took `hash` from the slot, or keeps its directory for resuming. -/
def Awaits (hash : String) : Task → Prop
  | .receiving newHash (.removingStale staleHash) => newHash = some hash ∨ staleHash = hash
  | .receiving newHash .storingSender => newHash = some hash
  | _ => False

end Task

/-- Receives that do not overlap: a call stores its sender when no other one is
past its look at the slot, the slot is empty and its directory is not being
removed. Removals succeed. -/
def StartsAlone (c : SessionConfig) : SessionLabel → Prop
  | .turn t answer =>
      match c.tasks[t]?, answer with
      | some (.receiving hash .storingSender), .ok =>
          c.shared.app.currentReceiveCancel = none → c.shared.app.lastCancelledRecvHash = none ∧
            ∀ entry ∈ c.tasks.zipIdx, entry.2 ≠ t → entry.1.isActive = false ∧
              entry.1.isStarting = false ∧ ∀ newHash ∈ hash, entry.1 ≠ .cleaning newHash
      | some (.receiving _ (.removingStale _)), .fail _ => False
      | some (.cleaning _), .fail _ => False
      | _, _ => True
  | _ => True

instance (c : SessionConfig) (l : SessionLabel) : Decidable (StartsAlone c l) := by
  rcases l with command | ⟨t, answer⟩ | restart
  · exact .isTrue trivial
  · dsimp only [StartsAlone]
    rcases c.tasks[t]? with _ | task
    · exact .isTrue trivial
    rcases task with ⟨hash, stage⟩ | _ | hash | _
    · rcases stage <;> rcases answer <;>
        first
          | exact .isTrue trivial
          | exact .isFalse id
          | exact inferInstanceAs (Decidable (_ = none → _))
    · exact .isTrue trivial
    · rcases answer <;> first | exact .isTrue trivial | exact .isFalse id
    · exact .isTrue trivial
  · exact .isTrue trivial

/-- A call that starts under the condition finds everything at rest. -/
theorem StartsAlone.stored {c : SessionConfig} {t : Nat} {answer : Answer} {hash : Option String}
    {result : Session × Task × List Task} (h : StartsAlone c (.turn t answer))
    (hTask : c.tasks[t]? = some (.receiving hash .storingSender))
    (hTurn : Task.turn c.shared t (.receiving hash .storingSender) answer = some result)
    (hFree : c.shared.app.currentReceiveCancel = none) :
    c.shared.app.lastCancelledRecvHash = none ∧ ∀ u other, u ≠ t → c.tasks[u]? = some other →
      other.isActive = false ∧ other.isStarting = false ∧
        ∀ newHash ∈ hash, other ≠ .cleaning newHash := by
  obtain rfl : answer = .ok := by
    cases answer <;> first | rfl | cases hTurn
  simp only [StartsAlone, hTask] at h
  obtain ⟨hEmpty, hOthers⟩ := h hFree
  exact ⟨hEmpty, fun u other hOther hFound =>
    hOthers (other, u) (List.mem_zipIdx_iff_getElem?.mpr hFound) hOther⟩

/-- A receive that starts alone stores alone. -/
theorem StartsAlone.storesAlone {c : SessionConfig} {l : SessionLabel} (h : StartsAlone c l) :
    StoresAlone c l := by
  unfold StoresAlone
  split
  · next t =>
      split
      · next hash hTask =>
          intro hFree task hMem
          obtain ⟨u, hFound⟩ := List.mem_iff_getElem?.mp hMem
          simp only [StartsAlone, hTask] at h
          by_cases hSelf : u = t
          · subst hSelf
            obtain rfl := Option.some.inj (hTask.symm.trans hFound)
            rfl
          · exact ((h hFree).2 (task, u) (List.mem_zipIdx_iff_getElem?.mpr hFound) hSelf).1
      · trivial
  · trivial

namespace Task
section Turns
variable {s s' : Session} {self : Nat} {task task' : Task} {spawned : List Task}

/-- Only a look at the slot and a last update write the slot. -/
theorem Turns.hashSlot (h : Turns s self task s' task' spawned) :
    s'.app.lastCancelledRecvHash = s.app.lastCancelledRecvHash ∨
      s'.app.lastCancelledRecvHash = none ∨
      ∃ hash result, task = .receiving hash (.updating result) ∧
        task' = .receiving hash (.finished result) := by
  cases h with
  | took hash => exact Or.inr (Or.inl rfl)
  | updated hash result => exact Or.inr (Or.inr ⟨hash, result, rfl, rfl⟩)
  | _ => exact Or.inl rfl

/-- A directory that is there after a turn was there before, or is the one of
the download that created it. -/
theorem Turns.recvStores (h : Turns s self task s' task' spawned) {hash : String}
    (hMem : hash ∈ s'.recvStores) : hash ∈ s.recvStores ∨ task'.owns = some hash := by
  cases h with
  | created newHash | halfCreated newHash =>
      rcases Finset.mem_insert.mp hMem with rfl | hOld
      · exact Or.inr rfl
      · exact Or.inl hOld
  | staleRemoved | cleaned => exact Or.inl (Finset.mem_of_mem_erase hMem)
  | updated newHash result => cases result <;> exact Or.inl hMem
  | _ => exact Or.inl hMem

/-- Who owns a directory after a turn of its owner. -/
theorem Turns.owns (h : Turns s self task s' task' spawned) {hash : String}
    (hOwns : task.owns = some hash) :
    task'.owns = some hash ∨ .cleaning hash ∈ spawned ∨
      s'.app.lastCancelledRecvHash = some hash ∨ task.removes = some hash := by
  cases h with
  | completed newHash =>
      obtain rfl := Option.some.inj hOwns
      exact Or.inr (Or.inl List.mem_cons_self)
  | updated newHash result =>
      cases result with
      | ok => cases hOwns
      | cancelled | error => exact Or.inr (Or.inr (Or.inl hOwns))
  | cleaned newHash | uncleaned newHash => exact Or.inr (Or.inr (Or.inr hOwns))
  | closed newHash result result' hResult hResult' =>
      left
      rcases hResult' with rfl | rfl
      · cases result' with
        | ok => exact (hResult rfl).elim
        | cancelled | error => exact hOwns
      · exact hOwns
  | bound | unbound | created | halfCreated | uncreated | transferred => exact Or.inl hOwns
  | _ => cases hOwns

/-- A call that has looked at the slot keeps what it found there until it
starts, unless it is refused. -/
theorem Turns.awaits (h : Turns s self task s' task' spawned) {hash : String}
    (hAwaits : task.Awaits hash) :
    task'.Awaits hash ∨ task.removes = some hash ∨ (s.app.currentReceiveCancel).isSome = true ∨
      (s.app.currentReceiveCancel = none ∧ task = .receiving (some hash) .storingSender ∧
        task' = .receiving (some hash) .binding) := by
  cases h with
  | staleRemoved newHash staleHash | staleKept newHash staleHash =>
      rcases hAwaits with hSame | rfl
      · exact Or.inl hSame
      · exact Or.inr (Or.inl rfl)
  | refused newHash sender hBusy => exact Or.inr (Or.inr (Or.inl (by simp [hBusy])))
  | stored newHash hFree =>
      obtain rfl : newHash = some hash := hAwaits
      exact Or.inr (Or.inr (Or.inr ⟨hFree, rfl, rfl⟩))
  | _ => cases hAwaits

/-- What the slot names is still named, or passes to the call that looked. -/
theorem Turns.named (h : Turns s self task s' task' spawned) {hash : String}
    (hNamed : s.app.lastCancelledRecvHash = some hash) :
    s'.app.lastCancelledRecvHash = some hash ∨ task'.Awaits hash ∨ task.isActive = true := by
  cases h with
  | took newHash =>
      refine Or.inr (Or.inl ?_)
      by_cases hSame : hash = newHash
      · simp [hNamed, hSame, afterTake, Awaits]
      · simp [hNamed, hSame, afterTake, Awaits]
  | updated newHash result => exact Or.inr (Or.inr rfl)
  | _ => exact Or.inl hNamed

/-- What a turn is about to remove it was about to, or it was cancelled last. -/
theorem Turns.removes (h : Turns s self task s' task' spawned) {hash : String}
    (hRemoves : task'.removes = some hash) :
    task.removes = some hash ∨ s.app.lastCancelledRecvHash = some hash := by
  cases h with
  | took newHash =>
      right
      unfold afterTake at hRemoves
      split at hRemoves
      · next staleHash hNamed =>
          split at hRemoves
          · rw [hNamed]
            exact hRemoves
          · cases hRemoves
      · cases hRemoves
  | _ => cases hRemoves

/-- What a turn downloads it did before, or it starts while nothing else is received. -/
theorem Turns.downloads (h : Turns s self task s' task' spawned) {hash : String}
    (hDownloads : task'.downloads = some hash) :
    task.downloads = some hash ∨ (s.app.currentReceiveCancel = none ∧
      task = .receiving (some hash) .storingSender ∧ task' = .receiving (some hash) .binding) := by
  cases h with
  | stored newHash hFree =>
      obtain rfl : newHash = some hash := hDownloads
      exact Or.inr ⟨hFree, rfl, rfl⟩
  | took newHash =>
      unfold afterTake at hDownloads
      split at hDownloads
      · split at hDownloads <;> cases hDownloads
      · cases hDownloads
  | bound | created | transferred => exact Or.inl hDownloads
  | _ => cases hDownloads

end Turns

theorem isActive_of_downloads {task : Task} {hash : String} (h : task.downloads = some hash) :
    task.isActive = true := by
  cases task with
  | receiving newHash stage => cases stage <;> first | rfl | cases h
  | _ => cases h

theorem isRunning_of_owns {task : Task} {hash : String} (h : task.owns = some hash) :
    task.isRunning = true := by
  cases task with
  | receiving newHash stage => cases stage <;> first | rfl | cases h
  | cleaning => rfl
  | _ => cases h

theorem isStarting_of_awaits {task : Task} {hash : String} (h : task.Awaits hash) :
    task.isStarting = true := by
  cases task with
  | receiving newHash stage => cases stage <;> first | rfl | cases h
  | _ => cases h

theorem isRunning_of_awaits {task : Task} {hash : String} (h : task.Awaits hash) :
    task.isRunning = true := by
  cases task with
  | receiving newHash stage => cases stage <;> first | rfl | cases h
  | _ => cases h

end Task

/-- A removal that is not let fail removes. -/
theorem StartsAlone.removed {c : SessionConfig} {t : Nat} {answer : Answer} {task task' : Task}
    {s' : Session} {spawned : List Task} {hash : String} (h : StartsAlone c (.turn t answer))
    (hTask : c.tasks[t]? = some task)
    (hTurn : task.turn c.shared t answer = some (s', task', spawned))
    (hRemoves : task.removes = some hash) : hash ∉ s'.recvStores := by
  unfold Task.removes at hRemoves
  split at hRemoves
  · next staleHash =>
      obtain rfl := Option.some.inj hRemoves
      cases answer with
      | ok =>
          simp only [Task.turn, Option.some.injEq, Prod.mk.injEq] at hTurn
          obtain ⟨rfl, _⟩ := hTurn
          exact Finset.notMem_erase _ _
      | fail left => simp [StartsAlone, hTask] at h
      | cancelled => simp [Task.turn] at hTurn
  · obtain rfl := Option.some.inj hRemoves
    cases answer with
    | ok =>
        simp only [Task.turn, Option.some.injEq, Prod.mk.injEq] at hTurn
        obtain ⟨rfl, _⟩ := hTurn
        exact Finset.notMem_erase _ _
    | fail left => simp [StartsAlone, hTask] at h
    | cancelled => simp [Task.turn] at hTurn
  · cases hRemoves

/-- Every directory has an owner, and none that downloads loses its directory. -/
structure StoresAccounted (c : SessionConfig) : Prop where
  slot : SlotOwned c
  empty : ∀ task ∈ c.tasks, task.isActive = true → c.shared.app.lastCancelledRecvHash = none
  owned : ∀ hash ∈ c.shared.recvStores, (∃ task ∈ c.tasks, task.owns = some hash) ∨
    ((∀ task ∈ c.tasks, task.isActive = false) ∧
      (c.shared.app.lastCancelledRecvHash = some hash ∨ ∃ task ∈ c.tasks, task.Awaits hash))
  safe : ∀ task ∈ c.tasks, ∀ hash, task.removes = some hash →
    ∀ other ∈ c.tasks, other.downloads ≠ some hash

section Turn
variable {c : SessionConfig} {t : Nat} {answer : Answer} {s' : Session} {task task' : Task}
  {spawned : List Task}

/-- A task of a configuration is the one that took the turn, or is untouched. -/
theorem mem_before_turn {other : Task} (hTask : c.tasks[t]? = some task)
    (hOther : other ∈ c.tasks) :
    other = task ∨ ∃ u, u ≠ t ∧ c.tasks[u]? = some other := by
  obtain ⟨u, hFound⟩ := List.mem_iff_getElem?.mp hOther
  by_cases hSelf : u = t
  · subst hSelf
    exact Or.inl (Option.some.inj (hFound.symm.trans hTask))
  · exact Or.inr ⟨u, hSelf, hFound⟩

/-- A download under way after a turn has just begun, or was under way before. -/
theorem SlotOwned.active_before (hSlot : SlotOwned c)
    (hTask : c.tasks[t]? = some task) (hTurns : Task.Turns c.shared t task s' task' spawned)
    {found : Task} (hFound : found ∈ c.tasks.set t task' ++ spawned)
    (hActive : found.isActive = true) :
    (c.shared.app.currentReceiveCancel = none ∧
        ∃ hash, task = .receiving hash .storingSender ∧ task' = .receiving hash .binding) ∨
      (found = task' ∧ task.isActive = true) ∨ (found ∈ c.tasks ∧ task.isActive = false) := by
  obtain ⟨u, hAt⟩ := List.mem_iff_getElem?.mp hFound
  rcases getElem?_after_turn hAt with ⟨_, _, rfl⟩ | ⟨hOther, hOld⟩ | ⟨_, hNew⟩
  · rcases hTurns.slot with ⟨hFree, _, hStored⟩ | ⟨hBefore, _⟩
    · exact Or.inl ⟨hFree, hStored⟩
    · exact Or.inr (Or.inl ⟨rfl, hBefore hActive⟩)
  · refine Or.inr (Or.inr ⟨List.mem_of_getElem? hOld, ?_⟩)
    by_contra hMover
    exact hOther (hSlot.alone u t found task hOld hTask hActive (by simpa using hMover))
  · obtain ⟨hash, rfl⟩ := hTurns.spawned_cleaning hNew
    cases hActive

/-- After the turn too, no cancelled receive is remembered while one is active. -/
theorem StoresAccounted.empty_after (hInv : StoresAccounted c)
    (hAlone : StartsAlone c (.turn t answer))
    (hTask : c.tasks[t]? = some task)
    (hTurn : task.turn c.shared t answer = some (s', task', spawned)) :
    ∀ found ∈ c.tasks.set t task' ++ spawned, found.isActive = true →
      s'.app.lastCancelledRecvHash = none := by
  intro found hFound hActive
  have hTurns := Task.turn_turns hTurn
  have hBefore := hInv.slot.active_before hTask hTurns hFound hActive
  rcases hTurns.hashSlot with hSame | hNone | ⟨hash, result, rfl, rfl⟩
  · rw [hSame]
    rcases hBefore with ⟨hFree, hash, rfl, rfl⟩ | ⟨_, hMover⟩ | ⟨hOld, _⟩
    · exact (hAlone.stored hTask hTurn hFree).1
    · exact hInv.empty task (List.mem_of_getElem? hTask) hMover
    · exact hInv.empty found hOld hActive
  · exact hNone
  · rcases hBefore with ⟨_, _, hStored, _⟩ | ⟨rfl, _⟩ | ⟨_, hMover⟩
    · cases hStored
    · cases hActive
    · cases hMover

/-- One turn leaves every store with an owner. -/
theorem StoresAccounted.owned_after (hInv : StoresAccounted c)
    (hAlone : StartsAlone c (.turn t answer))
    (hTask : c.tasks[t]? = some task)
    (hTurn : task.turn c.shared t answer = some (s', task', spawned)) :
    ∀ hash ∈ s'.recvStores, (∃ found ∈ c.tasks.set t task' ++ spawned, found.owns = some hash) ∨
      ((∀ found ∈ c.tasks.set t task' ++ spawned, found.isActive = false) ∧
        (s'.app.lastCancelledRecvHash = some hash ∨
          ∃ found ∈ c.tasks.set t task' ++ spawned, found.Awaits hash)) := by
  intro hash hMem
  have hTurns := Task.turn_turns hTurn
  have hLength := (List.getElem?_eq_some_iff.mp hTask).1
  have hMoved : task' ∈ c.tasks.set t task' ++ spawned :=
    List.mem_of_getElem? (getElem?_turn_self hLength)
  have hStays {u : Nat} {other : Task} (hOther : u ≠ t) (hAt : c.tasks[u]? = some other) :
      other ∈ c.tasks.set t task' ++ spawned :=
    List.mem_of_getElem? (getElem?_turn_other hOther hAt)
  have hNamed (h : s'.app.lastCancelledRecvHash = some hash) :
      ∀ found ∈ c.tasks.set t task' ++ spawned, found.isActive = false := by
    intro found hFound
    by_contra hActive
    have hNone := hInv.empty_after hAlone hTask hTurn found hFound (by simpa using hActive)
    cases hNone.symm.trans h
  have hIdle (hBefore : ∀ found ∈ c.tasks, found.isActive = false)
      (hStored : c.shared.app.currentReceiveCancel = none → ∀ newHash,
        task = .receiving newHash .storingSender → task' = .receiving newHash .binding → False) :
      ∀ found ∈ c.tasks.set t task' ++ spawned, found.isActive = false := by
    intro found hFound
    by_contra hActive
    rcases hInv.slot.active_before hTask hTurns hFound (by simpa using hActive) with
      ⟨hFree, newHash, hFrom, hTo⟩ | ⟨_, hMover⟩ | ⟨hOld, _⟩
    · exact hStored hFree newHash hFrom hTo
    · rw [hBefore task (List.mem_of_getElem? hTask)] at hMover
      cases hMover
    · exact hActive (hBefore found hOld)
  rcases hTurns.recvStores hMem with hOld | hOwns
  · rcases hInv.owned hash hOld with ⟨owner, hOwner, hOwns⟩ | ⟨hBefore, hNames | ⟨keeper, hKeeper, hAwaits⟩⟩
    · rcases mem_before_turn hTask hOwner with rfl | ⟨u, hOther, hAt⟩
      · rcases hTurns.owns hOwns with hSame | hCleaning | hNames | hRemoves
        · exact Or.inl ⟨task', hMoved, hSame⟩
        · exact Or.inl ⟨_, List.mem_append_right _ hCleaning, rfl⟩
        · exact Or.inr ⟨hNamed hNames, Or.inl hNames⟩
        · exact (hAlone.removed hTask hTurn hRemoves hMem).elim
      · exact Or.inl ⟨owner, hStays hOther hAt, hOwns⟩
    · rcases hTurns.named hNames with hSame | hAwaits | hActive
      · exact Or.inr ⟨hNamed hSame, Or.inl hSame⟩
      · refine Or.inr ⟨hIdle hBefore ?_, Or.inr ⟨task', hMoved, hAwaits⟩⟩
        rintro _ newHash _ rfl
        cases hAwaits
      · rw [hBefore task (List.mem_of_getElem? hTask)] at hActive
        cases hActive
    · rcases mem_before_turn hTask hKeeper with rfl | ⟨u, hOther, hAt⟩
      · rcases hTurns.awaits hAwaits with hSame | hRemoves | hBusy | ⟨_, rfl, rfl⟩
        · refine Or.inr ⟨hIdle hBefore ?_, Or.inr ⟨task', hMoved, hSame⟩⟩
          rintro _ newHash _ rfl
          cases hSame
        · exact (hAlone.removed hTask hTurn hRemoves hMem).elim
        · obtain ⟨sender, hSender⟩ := Option.isSome_iff_exists.mp hBusy
          obtain ⟨owner, hOwner, hActive⟩ := hInv.slot.owner sender hSender
          rw [hBefore owner (List.mem_of_getElem? hOwner)] at hActive
          cases hActive
        · exact Or.inl ⟨_, hMoved, rfl⟩
      · refine Or.inr ⟨hIdle hBefore ?_, Or.inr ⟨keeper, hStays hOther hAt, hAwaits⟩⟩
        rintro hFree newHash rfl rfl
        have hStill := ((hAlone.stored hTask hTurn hFree).2 u keeper hOther hAt).2.1
        rw [Task.isStarting_of_awaits hAwaits] at hStill
        cases hStill
  · exact Or.inl ⟨task', hMoved, hOwns⟩

/-- A download that begins finds no removal of its directory. -/
theorem StartsAlone.no_removal (hAlone : StartsAlone c (.turn t answer)) {newHash : Option String}
    (hTask : c.tasks[t]? = some (.receiving newHash .storingSender))
    (hTurn : Task.turn c.shared t (.receiving newHash .storingSender) answer =
      some (s', .receiving newHash .binding, spawned))
    (hFree : c.shared.app.currentReceiveCancel = none) {hash : String} :
    ∀ found ∈ c.tasks.set t (.receiving newHash .binding) ++ spawned, found.removes = some hash →
      ∀ other ∈ c.tasks.set t (.receiving newHash .binding) ++ spawned,
        other.downloads ≠ some hash := by
  intro found hFound hRemoves other hOther hDownloads
  have hOthers := (hAlone.stored hTask hTurn hFree).2
  obtain rfl : spawned = [] := by
    have hTurns := Task.turn_turns hTurn
    cases hTurns
    rfl
  obtain ⟨u, hAt⟩ := List.mem_iff_getElem?.mp hOther
  have hHash : newHash = some hash := by
    rcases getElem?_after_turn hAt with ⟨_, _, rfl⟩ | ⟨hne, hOld⟩ | ⟨_, hNew⟩
    · exact hDownloads
    · have hIdle := (hOthers u other hne hOld).1
      rw [Task.isActive_of_downloads hDownloads] at hIdle
      cases hIdle
    · cases hNew
  obtain ⟨v, hAt'⟩ := List.mem_iff_getElem?.mp hFound
  rcases getElem?_after_turn hAt' with ⟨_, _, rfl⟩ | ⟨hne, hOld⟩ | ⟨_, hNew⟩
  · cases hRemoves
  · obtain ⟨_, hStarting, hCleaning⟩ := hOthers v found hne hOld
    unfold Task.removes at hRemoves
    split at hRemoves
    · cases hStarting
    · exact hCleaning hash hHash (congrArg Task.cleaning (Option.some.inj hRemoves))
    · cases hRemoves
  · cases hNew

/-- One turn removes no store that somebody else downloads into. -/
theorem StoresAccounted.safe_after (hInv : StoresAccounted c)
    (hAlone : StartsAlone c (.turn t answer))
    (hTask : c.tasks[t]? = some task)
    (hTurn : task.turn c.shared t answer = some (s', task', spawned)) :
    ∀ found ∈ c.tasks.set t task' ++ spawned, ∀ hash, found.removes = some hash →
      ∀ other ∈ c.tasks.set t task' ++ spawned, other.downloads ≠ some hash := by
  intro found hFound hash hRemoves other hOther hDownloads
  have hTurns := Task.turn_turns hTurn
  have hActive := Task.isActive_of_downloads hDownloads
  have hMover := List.mem_of_getElem? hTask
  have hBefore (before : Task) (hMem : before ∈ c.tasks) (hWas : before.downloads = some hash)
      (hSpawned : found ∉ spawned) : False := by
    obtain ⟨v, hAt⟩ := List.mem_iff_getElem?.mp hFound
    rcases getElem?_after_turn hAt with ⟨_, _, rfl⟩ | ⟨_, hOld⟩ | ⟨_, hNew⟩
    · rcases hTurns.removes hRemoves with hSame | hNamed
      · exact hInv.safe task hMover hash hSame before hMem hWas
      · cases (hInv.empty before hMem (Task.isActive_of_downloads hWas)).symm.trans hNamed
    · exact hInv.safe found (List.mem_of_getElem? hOld) hash hRemoves before hMem hWas
    · exact hSpawned hNew
  rcases hInv.slot.active_before hTask hTurns hOther hActive with
    ⟨hFree, newHash, rfl, rfl⟩ | ⟨rfl, hWas⟩ | ⟨hOld, hIdle⟩
  · exact hAlone.no_removal hTask hTurn hFree found hFound hRemoves other hOther hDownloads
  · rcases hTurns.downloads hDownloads with hSame | ⟨_, rfl, _⟩
    · refine hBefore task hMover hSame fun hNew => ?_
      cases hTurns with
      | completed newHash => cases hDownloads
      | _ => cases hNew
    · cases hWas
  · refine hBefore other hOld hDownloads fun hNew => ?_
    cases hTurns with
    | completed newHash => cases hIdle
    | _ => cases hNew

end Turn

/-- One step keeps every partial store accounted for. -/
theorem storesAccounted_step {c d : SessionConfig} {l : SessionLabel} (hInv : StoresAccounted c)
    (hAlone : StartsAlone c l) (hStep : step c l = some d) : StoresAccounted d := by
  cases l with
  | restart reset => exact nomatch reset
  | turn t answer =>
      obtain ⟨task, s', task', spawned, hTask, hTurn, rfl⟩ := step_turn hStep
      exact ⟨slotOwned_turn hInv.slot hAlone.storesAlone hTask hTurn,
        hInv.empty_after hAlone hTask hTurn, hInv.owned_after hAlone hTask hTurn,
        hInv.safe_after hAlone hTask hTurn⟩
  | call command =>
      have hSlot := slotOwned_call hInv.slot hStep
      obtain rfl := Option.some.inj hStep
      have hOld (found : Task) (hFound : found ∈ c.tasks ++ [commands.start command])
          (hBusy : found.isActive = true ∨ ∃ hash, found.removes = some hash) : found ∈ c.tasks := by
        rcases List.mem_append.mp hFound with hOld | hNew
        · exact hOld
        · obtain rfl := List.mem_singleton.mp hNew
          cases command <;> rcases hBusy with hActive | ⟨_, hRemoves⟩ <;>
            first | cases hActive | cases hRemoves
      refine ⟨hSlot, ?_, ?_, ?_⟩
      · intro task hTask hActive
        exact hInv.empty task (hOld task hTask (Or.inl hActive)) hActive
      · intro hash hMem
        rcases hInv.owned hash hMem with ⟨owner, hOwner, hOwns⟩ | ⟨hIdle, hNames⟩
        · exact Or.inl ⟨owner, List.mem_append_left _ hOwner, hOwns⟩
        · refine Or.inr ⟨?_, hNames.imp_right fun ⟨keeper, hKeeper, hAwaits⟩ =>
            ⟨keeper, List.mem_append_left _ hKeeper, hAwaits⟩⟩
          intro task hTask
          by_contra hActive
          exact hActive (hIdle task (hOld task hTask (Or.inl (by simpa using hActive))))
      · intro task hTask hash hRemoves other hOther hDownloads
        exact hInv.safe task (hOld task hTask (Or.inr ⟨hash, hRemoves⟩)) hash hRemoves other
          (hOld other hOther (Or.inl (Task.isActive_of_downloads hDownloads))) hDownloads

/-- At the launch there are no partial stores. -/
theorem storesAccounted_launched : StoresAccounted launched where
  slot := sendersAccounted_launched.slot
  empty := fun _ hTask => (nomatch hTask)
  owned := fun _ hMem => by simp [launched] at hMem
  safe := fun _ hTask => (nomatch hTask)

/-- Partial stores are neither leaked nor removed in use: at rest the slot
names every directory that is left, and what is about to be removed is not the
directory of a download that runs. -/
theorem partial_stores_accounted {ls : List SessionLabel} {c : SessionConfig}
    (hRun : exec step launched ls = some c) (hMeets : Meets step StartsAlone launched ls) :
    ((∀ task ∈ c.tasks, task.isRunning = false) →
        ∀ hash ∈ c.shared.recvStores, c.shared.app.lastCancelledRecvHash = some hash) ∧
      ∀ task ∈ c.tasks, ∀ hash, task.removes = some hash →
        ∀ other ∈ c.tasks, other.downloads ≠ some hash := by
  have hInv : StoresAccounted c :=
    hMeets.invariant (fun _ _ _ hInv hAlone hStep => storesAccounted_step hInv hAlone hStep) hRun
      storesAccounted_launched
  refine ⟨?_, hInv.safe⟩
  intro hRest hash hMem
  rcases hInv.owned hash hMem with ⟨owner, hOwner, hOwns⟩ | ⟨_, hNamed | ⟨keeper, hKeeper, hAwaits⟩⟩
  · cases (Task.isRunning_of_owns hOwns).symm.trans (hRest owner hOwner)
  · exact hNamed
  · cases (Task.isRunning_of_awaits hAwaits).symm.trans (hRest keeper hKeeper)

/-- The cancelled receive has returned, and a receive of another hash follows
while a second one is refused. -/
def resumedElsewhere : List SessionLabel :=
  cancelledReceive ++ oks 0 1 ++ [.call (.receiveFile (some "bb")), .call (.receiveFile none)] ++
    oks 2 6 ++ oks 3 2 ++ [.turn 2 (.fail false)] ++ oks 2 2

theorem partial_stores_accounted_resumedElsewhere : ∃ c,
    exec step launched resumedElsewhere = some c ∧ "bb" ∈ c.shared.recvStores ∧
      c.shared.app.lastCancelledRecvHash = some "bb" := by
  have hRuns : ∃ c, exec step launched resumedElsewhere = some c ∧ "bb" ∈ c.shared.recvStores ∧
      ∀ task ∈ c.tasks, task.isRunning = false := by
    decide
  obtain ⟨c, hRun, hMem, hRest⟩ := hRuns
  exact ⟨c, hRun, hMem, (partial_stores_accounted hRun (by decide)).1 hRest "bb" hMem⟩

/-- An unparseable ticket makes the slot forget the directory that is left, and
a receive that overlaps the end of another loses its directory while it runs. -/
theorem partial_store_leaked_and_removed :
    (∃ c, exec step launched (cancelledReceive ++ oks 0 1 ++ [.call (.receiveFile none)] ++
        oks 2 4) = some c ∧ (∀ task ∈ c.tasks, task.isRunning = false) ∧
      "aa" ∈ c.shared.recvStores ∧ c.shared.app.lastCancelledRecvHash = none) ∧
    ∃ c, exec step launched (cancelledReceive ++ [.call (.receiveFile (some "aa"))] ++ oks 2 5 ++
        oks 0 1 ++ [.call (.receiveFile (some "bb"))] ++ oks 3 2) = some c ∧
      c.tasks[2]? = some (.receiving (some "aa") .transferring) ∧ "aa" ∈ c.shared.recvStores ∧
      ∃ d, step c (.turn 3 .ok) = some d ∧ "aa" ∉ d.shared.recvStores := by
  decide

end AltSendme.Desktop
