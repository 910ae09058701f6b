import AltSendme.Desktop.ReceiveCommands

/-! The cancel slot against the downloads. The slot is emptied by a cancel
before the download it hit has ended, so the next receive finds it free. -/
namespace AltSendme.Desktop

open Execution (exec Meets Hits)
open Execution.Pool (getElem?_after_call getElem?_after_turn getElem?_call_old getElem?_turn_self
  getElem?_turn_other)

namespace Task

def isActive : Task → Bool
  | .receiving _ stage => stage.isActive
  | _ => false

def result : Task → Option DownloadResult
  | .receiving _ stage => stage.result
  | _ => none

section Turns
variable {s s' : Session} {self : Nat} {task task' : Task} {spawned : List Task}

theorem Turns.spawned_cleaning (h : Turns s self task s' task' spawned) {new : Task}
    (hNew : new ∈ spawned) : ∃ hash, new = .cleaning hash := by
  cases h with
  | completed hash => exact ⟨hash, List.mem_singleton.mp hNew⟩
  | _ => cases hNew

/-- A turn stores the sender of its own call, empties the slot, or keeps it;
the end of a download empties it. -/
theorem Turns.slot (h : Turns s self task s' task' spawned) :
    (s.app.currentReceiveCancel = none ∧ s'.app.currentReceiveCancel = some self ∧
        ∃ hash, task = .receiving hash .storingSender ∧ task' = .receiving hash .binding) ∨
      ((task'.isActive = true → task.isActive = true) ∧
        (s'.app.currentReceiveCancel = none ∨
          (s'.app.currentReceiveCancel = s.app.currentReceiveCancel ∧
            (task.isActive = true → task'.isActive = true)))) := by
  cases h with
  | stored hash hFree => exact Or.inl ⟨hFree, rfl, hash, rfl, rfl⟩
  | updated hash result =>
      refine Or.inr ⟨by simp [isActive, Stage.isActive], Or.inl ?_⟩
      cases result <;> rfl
  | cancelled => exact Or.inr ⟨by simp [isActive], Or.inl rfl⟩
  | took hash =>
      refine Or.inr ⟨?_, Or.inr ⟨rfl, by simp [isActive, Stage.isActive]⟩⟩
      unfold afterTake
      split
      · split <;> simp [isActive, Stage.isActive]
      · simp [isActive, Stage.isActive]
  | _ => exact Or.inr ⟨by simp [isActive, Stage.isActive], Or.inr ⟨rfl, by
      simp [isActive, Stage.isActive]⟩⟩

/-- Only a cancel sends, and only the last update of a receive drops a sender. -/
theorem Turns.signals (h : Turns s self task s' task' spawned) :
    s'.signals = s.signals ∨
      ∃ sender, s.app.currentReceiveCancel = some sender ∧
        ((task = .cancelling ∧ s'.signals = Function.update s.signals sender (some .sent)) ∨
          (s'.signals = Function.update s.signals sender (some .dropped) ∧
            ∃ hash result, task = .receiving hash (.updating result) ∧
              task' = .receiving hash (.finished result))) := by
  cases h with
  | updated hash result =>
      cases hSlot : s.app.currentReceiveCancel with
      | none =>
          left
          cases result <;> simp [Session.updateOutcome, Session.clearCancel, hSlot]
      | some sender =>
          refine Or.inr ⟨sender, rfl, Or.inr ⟨?_, hash, result, rfl, rfl⟩⟩
          cases result <;> simp [Session.updateOutcome, Session.clearCancel, hSlot]
  | cancelled =>
      cases hSlot : s.app.currentReceiveCancel with
      | none => exact Or.inl (by simp [Session.cancelReceive, hSlot])
      | some sender =>
          exact Or.inr ⟨sender, rfl, Or.inl ⟨rfl, by simp [Session.cancelReceive, hSlot]⟩⟩
  | _ => exact Or.inl rfl

/-- A download comes to `cancelled` in the select, by a resolved receiver. -/
theorem Turns.result_cancelled (h : Turns s self task s' task' spawned)
    (hResult : task'.result = some .cancelled) :
    task.result = some .cancelled ∨
      ((s.signals self).isSome = true ∧ ∃ hash, task = .receiving hash .transferring) := by
  cases h with
  | transferred hash result hSignal => exact Or.inr ⟨hSignal (Option.some.inj hResult), hash, rfl⟩
  | closed hash result result' _ hSame =>
      rcases hSame with rfl | rfl
      · exact Or.inl hResult
      · cases hResult
  | updated hash result => exact Or.inl hResult
  | took hash =>
      unfold afterTake at hResult
      split at hResult
      · split at hResult <;> cases hResult
      · cases hResult
  | _ => cases hResult

end Turns

end Task

/-- The sender in the slot is that of the one download under way. -/
structure SlotOwned (c : SessionConfig) : Prop where
  owner : ∀ sender, c.shared.app.currentReceiveCancel = some sender →
    ∃ task, c.tasks[sender]? = some task ∧ task.isActive = true
  alone : ∀ (t u : Nat) (a b : Task), c.tasks[t]? = some a → c.tasks[u]? = some b →
    a.isActive = true → b.isActive = true → t = u

/-- A receive stores its sender only when no download is under way. -/
def StoresAlone (c : SessionConfig) : SessionLabel → Prop
  | .turn t .ok =>
      match c.tasks[t]? with
      | some (.receiving _ .storingSender) =>
          c.shared.app.currentReceiveCancel = none → ∀ task ∈ c.tasks, task.isActive = false
      | _ => True
  | _ => True

instance (c : SessionConfig) (l : SessionLabel) : Decidable (StoresAlone c l) := by
  unfold StoresAlone
  split
  · split <;> infer_instance
  · infer_instance

/-- What a scheduled turn did. -/
theorem step_turn {c d : SessionConfig} {t : Nat} {answer : Answer}
    (h : step c (.turn t answer) = some d) :
    ∃ task s' task' spawned, c.tasks[t]? = some task ∧
      task.turn c.shared t answer = some (s', task', spawned) ∧
      d = ⟨s', c.tasks.set t task' ++ spawned⟩ :=
  (Execution.Pool.next_turn_eq_some _).mp h

/-- A sender that is stored under the condition meets no other download. -/
theorem StoresAlone.stored {c : SessionConfig} {t : Nat} {answer : Answer} {hash : Option String}
    {result : Session × Task × List Task} (h : StoresAlone c (.turn t answer))
    (hTask : c.tasks[t]? = some (.receiving hash .storingSender))
    (hTurn : Task.turn c.shared t (.receiving hash .storingSender) answer = some result)
    (hFree : c.shared.app.currentReceiveCancel = none) : ∀ task ∈ c.tasks, task.isActive = false := by
  obtain rfl : answer = .ok := by
    cases answer <;> first | rfl | cases hTurn
  simp only [StoresAlone, hTask] at h
  exact h hFree

theorem slotOwned_turn {c : SessionConfig} {t : Nat} {answer : Answer} {s' : Session}
    {task task' : Task} {spawned : List Task} (hInv : SlotOwned c)
    (hAlone : StoresAlone c (.turn t answer)) (hTask : c.tasks[t]? = some task)
    (hTurn : task.turn c.shared t answer = some (s', task', spawned)) :
    SlotOwned ⟨s', c.tasks.set t task' ++ spawned⟩ := by
  have hTurns := Task.turn_turns hTurn
  have hLength := (List.getElem?_eq_some_iff.mp hTask).1
  have hSpawned (new : Task) (hNew : new ∈ spawned) : new.isActive = false := by
    obtain ⟨hash, rfl⟩ := hTurns.spawned_cleaning hNew
    rfl
  rcases hTurns.slot with ⟨hFree, hStored, hash, rfl, rfl⟩ | ⟨hActive, hSlot⟩
  · have hIdle := hAlone.stored hTask hTurn hFree
    have hOnly (u : Nat) (found : Task)
        (hFound : (c.tasks.set t (.receiving hash .binding) ++ spawned)[u]? = some found)
        (hFoundActive : found.isActive = true) : u = t := by
      rcases getElem?_after_turn hFound with ⟨rfl, _, _⟩ | ⟨_, hOld⟩ | ⟨_, hNew⟩
      · rfl
      · rw [hIdle found (List.mem_of_getElem? hOld)] at hFoundActive
        cases hFoundActive
      · rw [hSpawned found hNew] at hFoundActive
        cases hFoundActive
    refine ⟨?_, ?_⟩
    · intro sender hSender
      rw [hStored, Option.some.injEq] at hSender
      subst hSender
      exact ⟨_, getElem?_turn_self hLength, rfl⟩
    · intro u v a b hu hv ha hb
      rw [hOnly u a hu ha, hOnly v b hv hb]
  · have hBefore (u : Nat) (found : Task)
        (hFound : (c.tasks.set t task' ++ spawned)[u]? = some found)
        (hFoundActive : found.isActive = true) :
        ∃ old, c.tasks[u]? = some old ∧ old.isActive = true := by
      rcases getElem?_after_turn hFound with ⟨rfl, _, rfl⟩ | ⟨_, hOld⟩ | ⟨_, hNew⟩
      · exact ⟨task, hTask, hActive hFoundActive⟩
      · exact ⟨found, hOld, hFoundActive⟩
      · rw [hSpawned found hNew] at hFoundActive
        cases hFoundActive
    refine ⟨?_, ?_⟩
    · intro sender hSender
      rcases hSlot with hNone | ⟨hSame, hStays⟩
      · cases hNone.symm.trans hSender
      · obtain ⟨owner, hOwner, hOwnerActive⟩ := hInv.owner sender (hSame.symm.trans hSender)
        by_cases hSelf : sender = t
        · subst hSelf
          obtain rfl := Option.some.inj (hTask.symm.trans hOwner)
          exact ⟨task', getElem?_turn_self hLength, hStays hOwnerActive⟩
        · exact ⟨owner, getElem?_turn_other hSelf hOwner, hOwnerActive⟩
    · intro u v a b hu hv ha hb
      obtain ⟨a', hu', ha'⟩ := hBefore u a hu ha
      obtain ⟨b', hv', hb'⟩ := hBefore v b hv hb
      exact hInv.alone u v a' b' hu' hv' ha' hb'

theorem slotOwned_call {c d : SessionConfig} {command : Command} (hInv : SlotOwned c)
    (hStep : step c (.call command) = some d) : SlotOwned d := by
  obtain rfl := Option.some.inj hStep
  have hBefore (u : Nat) (found : Task) (hFound : (c.tasks ++ [commands.start command])[u]? = some found)
      (hFoundActive : found.isActive = true) : c.tasks[u]? = some found := by
    rcases getElem?_after_call hFound with hOld | ⟨_, rfl⟩
    · exact hOld
    · cases command <;> cases hFoundActive
  refine ⟨?_, ?_⟩
  · intro sender hSender
    obtain ⟨owner, hOwner, hOwnerActive⟩ := hInv.owner sender hSender
    exact ⟨owner, getElem?_call_old hOwner, hOwnerActive⟩
  · intro u v a b hu hv ha hb
    exact hInv.alone u v a b (hBefore u a hu ha) (hBefore v b hv hb) ha hb

/-- The step is a `cancel_receive` that finds the sender of call `t`. -/
def CancelsSender (t : Nat) (c : SessionConfig) : SessionLabel → Prop
  | .turn k .ok => c.tasks[k]? = some .cancelling ∧ c.shared.app.currentReceiveCancel = some t
  | _ => False

instance (t : Nat) (c : SessionConfig) (l : SessionLabel) : Decidable (CancelsSender t c l) := by
  unfold CancelsSender
  split <;> infer_instance

/-- A `cancel_receive` of the run found the sender of call `t` in the slot. -/
abbrev CancelHit (ls : List SessionLabel) (t : Nat) : Prop :=
  Hits step (CancelsSender t) launched ls

/-- What the senders of a run have come to. -/
structure SendersAccounted (ls : List SessionLabel) (c : SessionConfig) : Prop where
  slot : SlotOwned c
  dropped : ∀ t, c.shared.signals t = some .dropped →
    ∃ hash result, c.tasks[t]? = some (.receiving hash (.finished result))
  sent : ∀ t, c.shared.signals t = some .sent → CancelHit ls t
  cancelled : ∀ (t : Nat) (task : Task), c.tasks[t]? = some task →
    task.result = some .cancelled → CancelHit ls t

theorem sendersAccounted_turn {ls : List SessionLabel} {c : SessionConfig} {t : Nat}
    {answer : Answer} {s' : Session} {task task' : Task} {spawned : List Task}
    (hRun : exec step launched ls = some c) (hInv : SendersAccounted ls c)
    (hAlone : StoresAlone c (.turn t answer)) (hTask : c.tasks[t]? = some task)
    (hTurn : task.turn c.shared t answer = some (s', task', spawned)) :
    SendersAccounted (ls ++ [.turn t answer]) ⟨s', c.tasks.set t task' ++ spawned⟩ := by
  have hTurns := Task.turn_turns hTurn
  have hLength := (List.getElem?_eq_some_iff.mp hTask).1
  have hOlder (u : Nat) (h : CancelHit ls u) : CancelHit (ls ++ [.turn t answer]) u :=
    (Execution.hits_concat hRun).mpr (Or.inl h)
  have hFinished (u : Nat) (h : ∃ hash result, c.tasks[u]? = some (.receiving hash (.finished result))) :
      ∃ hash result, (c.tasks.set t task' ++ spawned)[u]? = some (.receiving hash (.finished result)) := by
    obtain ⟨hash, result, hOld⟩ := h
    refine ⟨hash, result, getElem?_turn_other ?_ hOld⟩
    rintro rfl
    obtain rfl := Option.some.inj (hTask.symm.trans hOld)
    cases hTurns
  refine ⟨slotOwned_turn hInv.slot hAlone hTask hTurn, ?_, ?_, ?_⟩
  · intro u hDropped
    rcases hTurns.signals with hSame | ⟨sender, hSlot, ⟨_, hSent⟩ | ⟨hDrop, hash, result, rfl, rfl⟩⟩
    · rw [hSame] at hDropped
      exact hFinished u (hInv.dropped u hDropped)
    · rw [hSent, Function.update_apply] at hDropped
      split at hDropped
      · cases hDropped
      · exact hFinished u (hInv.dropped u hDropped)
    · -- the stored sender is that of the download that ends here
      obtain ⟨owner, hOwner, hOwnerActive⟩ := hInv.slot.owner sender hSlot
      obtain rfl : sender = t := hInv.slot.alone sender t _ _ hOwner hTask hOwnerActive rfl
      rw [hDrop, Function.update_apply] at hDropped
      split at hDropped
      · next hSelf =>
          subst hSelf
          exact ⟨hash, result, getElem?_turn_self hLength⟩
      · exact hFinished u (hInv.dropped u hDropped)
  · intro u hSent
    rcases hTurns.signals with hSame | ⟨sender, hSlot, ⟨rfl, hNew⟩ | ⟨hDrop, _⟩⟩
    · rw [hSame] at hSent
      exact hOlder u (hInv.sent u hSent)
    · rw [hNew, Function.update_apply] at hSent
      split at hSent
      · next hSelf =>
          subst hSelf
          obtain rfl : answer = .ok := by cases answer <;> first | rfl | cases hTurn
          exact (Execution.hits_concat hRun).mpr (Or.inr ⟨hTask, hSlot⟩)
      · exact hOlder u (hInv.sent u hSent)
    · rw [hDrop, Function.update_apply] at hSent
      split at hSent
      · cases hSent
      · exact hOlder u (hInv.sent u hSent)
  · intro u found hFound hResult
    rcases getElem?_after_turn hFound with ⟨rfl, _, rfl⟩ | ⟨_, hOld⟩ | ⟨_, hNew⟩
    · rcases hTurns.result_cancelled hResult with hBefore | ⟨hSignal, hash, rfl⟩
      · exact hOlder _ (hInv.cancelled _ task hTask hBefore)
      · refine hOlder _ (hInv.sent _ ?_)
        obtain ⟨signal, hSome⟩ := Option.isSome_iff_exists.mp hSignal
        cases signal with
        | sent => exact hSome
        | dropped =>
            obtain ⟨_, _, hEnd⟩ := hInv.dropped _ hSome
            cases hTask.symm.trans hEnd
    · exact hOlder u (hInv.cancelled u found hOld hResult)
    · obtain ⟨hash, rfl⟩ := hTurns.spawned_cleaning hNew
      cases hResult

theorem sendersAccounted_step {ls : List SessionLabel} {c d : SessionConfig} {l : SessionLabel}
    (hRun : exec step launched ls = some c) (hInv : SendersAccounted ls c)
    (hAlone : StoresAlone c l) (hStep : step c l = some d) :
    SendersAccounted (ls ++ [l]) d := by
  cases l with
  | restart reset => exact nomatch reset
  | call command =>
      have hOlder (u : Nat) (h : CancelHit ls u) : CancelHit (ls ++ [.call command]) u :=
        (Execution.hits_concat hRun).mpr (Or.inl h)
      have hSlot := slotOwned_call hInv.slot hStep
      obtain rfl := Option.some.inj hStep
      refine ⟨hSlot, ?_, fun u hSent => hOlder u (hInv.sent u hSent), ?_⟩
      · intro u hDropped
        obtain ⟨hash, result, hOld⟩ := hInv.dropped u hDropped
        exact ⟨hash, result, getElem?_call_old hOld⟩
      · intro u found hFound hResult
        rcases getElem?_after_call hFound with hOld | ⟨_, rfl⟩
        · exact hOlder u (hInv.cancelled u found hOld hResult)
        · cases command <;> cases hResult
  | turn t answer =>
      obtain ⟨task, s', task', spawned, hTask, hTurn, rfl⟩ := step_turn hStep
      exact sendersAccounted_turn hRun hInv hAlone hTask hTurn

theorem sendersAccounted_launched : SendersAccounted [] launched where
  slot := ⟨fun _ hSlot => (nomatch hSlot), fun t _ _ _ hTask => by simp [launched] at hTask⟩
  dropped := fun _ hDropped => (nomatch hDropped)
  sent := fun _ hSent => (nomatch hSent)
  cancelled := fun t _ hTask => by simp [launched] at hTask

/-- A download ends as cancelled only through a cancel that found its own
sender, and the end of a download finds no sender of another. -/
theorem cancel_hits_own_download {ls : List SessionLabel} {c : SessionConfig}
    (hRun : exec step launched ls = some c) (hMeets : Meets step StoresAlone launched ls) :
    (∀ t hash stage, c.tasks[t]? = some (.receiving hash stage) →
        stage.result = some .cancelled → CancelHit ls t) ∧
      ∀ t hash result sender, c.tasks[t]? = some (.receiving hash (.updating result)) →
        c.shared.app.currentReceiveCancel = some sender → sender = t := by
  have hInv : SendersAccounted ls c :=
    hMeets.history sendersAccounted_launched
      (fun _ _ _ _ hPrior hInv hAlone hStep => sendersAccounted_step hPrior hInv hAlone hStep) hRun
  refine ⟨fun t hash stage hTask hResult => hInv.cancelled t _ hTask hResult, ?_⟩
  intro t hash result sender hTask hSlot
  obtain ⟨owner, hOwner, hActive⟩ := hInv.slot.owner sender hSlot
  exact hInv.slot.alone sender t _ _ hOwner hTask hActive rfl

/-- A receive that is cancelled while it transfers. -/
def cancelledReceive : List SessionLabel :=
  [.call (.receiveFile (some "aa"))] ++ oks 0 5 ++ [.call .cancelReceive] ++ oks 1 1 ++
    [.turn 0 .cancelled] ++ oks 0 1

theorem cancel_hits_own_download_cancelledReceive : ∃ c,
    exec step launched cancelledReceive = some c ∧
      c.tasks[0]? = some (.receiving (some "aa") (.updating .cancelled)) ∧
      CancelHit cancelledReceive 0 := by
  have hRuns : ∃ c, exec step launched cancelledReceive = some c ∧
      c.tasks[0]? = some (.receiving (some "aa") (.updating .cancelled)) := by
    decide
  obtain ⟨c, hRun, hTask⟩ := hRuns
  exact ⟨c, hRun, hTask, (cancel_hits_own_download hRun (by decide)).1 0 _ _ hTask rfl⟩

/-- The next receive takes the slot before the cancelled one makes its last
update, which drops the sender it finds there. -/
theorem cancelled_without_cancel : ∃ c,
    exec step launched (cancelledReceive ++ [.call (.receiveFile (some "bb"))] ++ oks 2 5 ++
      oks 0 1 ++ [.turn 2 .cancelled] ++ oks 2 2) = some c ∧
      c.tasks[2]? = some (.receiving (some "bb") (.finished .cancelled)) ∧
      ¬ CancelHit (cancelledReceive ++ [.call (.receiveFile (some "bb"))] ++ oks 2 5 ++
        oks 0 1 ++ [.turn 2 .cancelled] ++ oks 2 2) 2 := by
  decide

end AltSendme.Desktop
