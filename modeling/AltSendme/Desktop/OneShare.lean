import AltSendme.Desktop.SendCommands
import AltSendme.Execution.Tally

/-! One share at a time. A send owns the slot from its first lock section to its
last, the installed share owns it after that, and a stop that took the share out
owns it until the endpoint is closed. -/
namespace AltSendme.Desktop.Sharing
open Execution
open Execution.Pool (tally_call tally_turn tally_eq_zero weight_le_tally)

/-- The send has reserved the slot and not given it back. -/
def SendStage.inSetup : SendStage → Bool
  | .preparing | .resolvingRelay | .starting | .installing _ | .unreserving _ => true
  | .reserving | .returned _ => false

/-- The stop has taken a share out whose endpoint may still be open. -/
def StopStage.inClosing : StopStage → Bool
  | .shuttingDown | .closing => true
  | .locking | .stoppingHost | .returned => false

/-- The turns a send takes at most before it returns. -/
def SendStage.turnsLeft : SendStage → Nat
  | .reserving => 5
  | .preparing => 4
  | .resolvingRelay => 3
  | .starting => 2
  | .installing _ | .unreserving _ => 1
  | .returned _ => 0

def StopStage.turnsLeft : StopStage → Nat
  | .locking => 4
  | .shuttingDown => 3
  | .closing => 2
  | .stoppingHost => 1
  | .returned => 0

namespace Task

def inSetup : Task → Bool
  | .sending _ stage => stage.inSetup
  | .stopping _ => false

def inClosing : Task → Bool
  | .sending _ _ => false
  | .stopping stage => stage.inClosing

def turnsLeft : Task → Nat
  | .sending _ stage => stage.turnsLeft
  | .stopping stage => stage.turnsLeft

end Task

def setups (_ : Nat) (task : Task) : Nat := task.inSetup.toNat

def closings (_ : Nat) (task : Task) : Nat := task.inClosing.toNat

/-- Who owns the slot: the sends in their setup, the share, and the stops that close one. -/
def owners (c : SessionConfig) : Nat :=
  c.tally setups + c.tally closings + c.shared.app.currentShare.isSome.toNat

/-- What a turn does to the slot. -/
inductive Hands (s : Session) : Task → Session → Task → Prop where
  | passed (task task' : Task) (s' : Session)
      (hStarting : s'.app.isShareStarting.toNat + task.inSetup.toNat =
        s.app.isShareStarting.toNat + task'.inSetup.toNat)
      (hOwner : s'.app.currentShare.isSome.toNat + task'.inSetup.toNat + task'.inClosing.toNat ≤
        s.app.currentShare.isSome.toNat + task.inSetup.toNat + task.inClosing.toNat) :
      Hands s task s' task'
  | reserved (paths : List String) (hFree : s.lock = none) (hNone : s.app.currentShare = none)
      (hStarting : s.app.isShareStarting = false) :
      Hands s (.sending paths .reserving) (s.setStarting true) (.sending paths .preparing)

/-- One turn of a send keeps the slot, takes it or hands it over. -/
theorem sendTurn_hands {s s' : Session} {paths : List String} {stage stage' : SendStage}
    {answer : Answer} (hTurn : Task.sendTurn s paths stage answer = some (s', stage'))
    (hOwn : (Task.sending paths stage).inSetup = true → s.app.isShareStarting = true)
    (hAlone : (Task.sending paths stage).inSetup = true → s.app.currentShare = none) :
    Hands s (.sending paths stage) s' (.sending paths stage') := by
  unfold Task.sendTurn at hTurn
  split at hTurn
  · obtain ⟨hFree, hTaken⟩ := locked_eq_some.mp hTurn
    unfold Session.reserve at hTaken
    split at hTaken
    · cases hTaken
      exact .passed _ _ _ rfl (Nat.le_refl _)
    · next hSlot =>
        cases hTaken
        simp only [Bool.or_eq_true, not_or, Bool.not_eq_true, Option.isSome_eq_false_iff,
          Option.isNone_iff_eq_none] at hSlot
        exact .reserved paths hFree hSlot.1 hSlot.2
  · cases hTurn
    exact .passed _ _ _ rfl (Nat.le_refl _)
  · cases hTurn
    exact .passed _ _ _ rfl (Nat.le_refl _)
  · cases hTurn
    exact .passed _ _ _ rfl (Nat.le_refl _)
  · cases hTurn
    exact .passed _ _ _ rfl (Nat.le_refl _)
  · cases hTurn
    exact .passed _ _ _ rfl (Nat.le_refl _)
  · cases hTurn
    exact .passed _ _ _ rfl (Nat.le_refl _)
  · obtain ⟨_, hTaken⟩ := locked_eq_some.mp hTurn
    rw [Session.install, if_neg (by rw [hAlone rfl]; exact Bool.false_ne_true)] at hTaken
    cases hTaken
    refine .passed _ _ _ ?_ ?_
    · rw [hOwn rfl]
      rfl
    · rw [hAlone rfl]
      exact Nat.le_refl _
  · obtain ⟨_, hTaken⟩ := locked_eq_some.mp hTurn
    cases hTaken
    refine .passed _ _ _ ?_ ?_
    · rw [hOwn rfl]
      rfl
    · exact Nat.le_add_right _ _
  · cases hTurn

/-- One turn of a stop keeps the slot or frees it. -/
theorem stopTurn_hands {s s' : Session} {self fresh : Nat} {stage stage' : StopStage}
    {answer : Answer} (hTurn : Task.stopTurn s self fresh stage answer = some (s', stage')) :
    Hands s (.stopping stage) s' (.stopping stage') := by
  unfold Task.stopTurn at hTurn
  split at hTurn
  · obtain ⟨_, hTaken⟩ := locked_eq_some.mp hTurn
    unfold Session.beginStop at hTaken
    split at hTaken
    · next hShare =>
        cases hTaken
        refine .passed _ _ _ rfl ?_
        rw [hShare]
        exact Nat.le_refl _
    · unfold Session.stopHost at hTaken
      split at hTaken
      · cases hTaken
        exact .passed _ _ _ rfl (Nat.zero_le _)
      · cases hTaken
        exact .passed _ _ _ rfl (Nat.zero_le _)
  · cases hTurn
    exact .passed _ _ _ rfl (Nat.le_refl _)
  · cases hTurn
    exact .passed _ _ _ rfl (Nat.le_refl _)
  · have hTaken := Option.some.inj hTurn
    unfold Session.stopHost at hTaken
    split at hTaken
    · cases hTaken
      exact .passed _ _ _ rfl (Nat.le_add_right _ _)
    · cases hTaken
      exact .passed _ _ _ rfl (Nat.le_add_right _ _)
  · cases hTurn
    exact .passed _ _ _ rfl (Nat.le_refl _)
  · cases hTurn

/-- One turn moves the slot in one of the named ways. -/
theorem turn_hands {s s' : Session} {self fresh : Nat} {task task' : Task} {spawned : List Task}
    {answer : Answer} (hTurn : task.turn s self fresh answer = some (s', task', spawned))
    (hOwn : task.inSetup = true → s.app.isShareStarting = true)
    (hAlone : task.inSetup = true → s.app.currentShare = none) : Hands s task s' task' := by
  cases task with
  | sending paths stage =>
      obtain ⟨⟨found, stage'⟩, hFound, hEq⟩ := Option.map_eq_some_iff.mp hTurn
      cases hEq
      exact sendTurn_hands hFound hOwn hAlone
  | stopping stage =>
      obtain ⟨⟨found, stage'⟩, hFound, hEq⟩ := Option.map_eq_some_iff.mp hTurn
      cases hEq
      exact stopTurn_hands hFound

/-- A command that was just called owns nothing. -/
theorem start_idle (command : Command) : (Command.start command).inSetup = false ∧
    (Command.start command).inClosing = false ∧ (Command.start command).turnsLeft ≤ 5 := by
  cases command with
  | stopSharing => exact ⟨rfl, rfl, by decide⟩
  | sendItems paths =>
      rw [Command.start]
      cases paths.isEmpty with
      | true => exact ⟨rfl, rfl, Nat.zero_le 5⟩
      | false => exact ⟨rfl, rfl, Nat.le_refl 5⟩

/-- The flag is up while a send is in its setup, and the slot has one owner at most. -/
structure SlotAccounted (c : SessionConfig) : Prop where
  held : LockHeld c
  locker : ∀ t, c.shared.lock = some t →
    ∃ stage, c.tasks[t]? = some (.stopping stage) ∧ stage.holds = true
  starting : c.tally setups = c.shared.app.isShareStarting.toNat
  alone : owners c ≤ 1

namespace SlotAccounted

variable {c d : SessionConfig}

/-- At the launch the slot is free. -/
theorem launched (node : Bool) : SlotAccounted (launched node) where
  held := lockHeld_launched node
  locker _ hLock := by cases hLock
  starting := rfl
  alone := Nat.zero_le 1

/-- While a send is in its setup the flag is up and there is no share. -/
theorem of_setup (hc : SlotAccounted c) {t : Nat} {task : Task} (hTask : c.tasks[t]? = some task)
    (hSetup : task.inSetup = true) :
    c.shared.app.isShareStarting = true ∧ c.shared.app.currentShare = none := by
  have hWeight : setups t task ≤ c.tally setups := weight_le_tally hTask
  have hStarting := hc.starting
  have hAlone := hc.alone
  unfold owners at hAlone
  rw [setups, hSetup, Bool.toNat_true] at hWeight
  constructor
  · cases hFlag : c.shared.app.isShareStarting with
    | true => rfl
    | false =>
        rw [hFlag, Bool.toNat_false] at hStarting
        omega
  · cases hShare : c.shared.app.currentShare with
    | none => rfl
    | some share =>
        rw [hShare, Option.isSome_some, Bool.toNat_true] at hAlone
        omega

/-- With the lock free no stop is closing a share. -/
theorem closings_of_free (hc : SlotAccounted c) (hFree : c.shared.lock = none) :
    c.tally closings = 0 := by
  apply tally_eq_zero
  intro t task hTask
  unfold closings
  cases hClosing : task.inClosing with
  | false => rfl
  | true =>
      cases task with
      | sending paths stage => cases hClosing
      | stopping stage =>
          have hHolds : stage.holds = true := by
            cases stage with
            | shuttingDown => rfl
            | closing => rfl
            | locking => cases hClosing
            | stoppingHost => cases hClosing
            | returned => cases hClosing
          rw [hc.held.holder t stage hTask hHolds] at hFree
          cases hFree

/-- One turn leaves the lock with the call that holds it. -/
theorem locker_turn (hc : SlotAccounted c) {t : Nat} {task task' : Task} {s' : Session}
    (hTask : c.tasks[t]? = some task)
    (hTurns : Turns c.shared t c.tasks.length task s' task') :
    ∀ u, s'.lock = some u →
      ∃ stage, (c.tasks.set t task')[u]? = some (.stopping stage) ∧ stage.holds = true := by
  have hLength : t < c.tasks.length := (List.getElem?_eq_some_iff.mp hTask).1
  intro u hLock
  cases hTurns with
  | worked paths stage stage' _ hSame =>
      obtain ⟨stop, hStop, hHolds⟩ := hc.locker u (hSame.1 ▸ hLock)
      have hOther : t ≠ u := by
        rintro rfl
        rw [hTask] at hStop
        cases hStop
      exact ⟨stop, by rw [List.getElem?_set_ne hOther, hStop], hHolds⟩
  | installed paths ticket hFree hNone =>
      rw [(install_of_none paths ticket hNone).1, hFree] at hLock
      cases hLock
  | held stage hFree hHolds =>
      obtain rfl := Option.some.inj hLock
      exact ⟨stage, List.getElem?_set_self hLength, hHolds⟩
  | moved stage stage' hHolds hHolds' =>
      by_cases hut : t = u
      · subst hut
        exact ⟨stage', List.getElem?_set_self hLength, hHolds'⟩
      · obtain ⟨stop, hStop, hStopHolds⟩ := hc.locker u hLock
        exact ⟨stop, by rw [List.getElem?_set_ne hut, hStop], hStopHolds⟩
  | ended stage s' hHolds => cases hLock

/-- One step keeps the slot with one owner. -/
theorem kept {l : SessionLabel} (hc : SlotAccounted c) (hNext : step c l = some d) :
    SlotAccounted d := by
  have hHeld := lockHeld_step hc.held hNext
  cases l with
  | restart reset => cases reset
  | call command =>
      have hNothing := start_idle command
      have hSetups := tally_call setups setups hNext fun _ _ _ => rfl
      have hClosings := tally_call closings closings hNext fun _ _ _ => rfl
      change _ = _ + (Command.start command).inSetup.toNat at hSetups
      change _ = _ + (Command.start command).inClosing.toNat at hClosings
      rw [hNothing.1, Bool.toNat_false, Nat.add_zero] at hSetups
      rw [hNothing.2.1, Bool.toNat_false, Nat.add_zero] at hClosings
      obtain rfl := Option.some.inj hNext
      refine ⟨hHeld, fun t hLock => ?_, hSetups.trans hc.starting, ?_⟩
      · obtain ⟨stage, hStop, hHolds⟩ := hc.locker t hLock
        exact ⟨stage, Pool.getElem?_call_old hStop, hHolds⟩
      · have hAlone := hc.alone
        unfold owners at hAlone ⊢
        rw [hSetups, hClosings]
        exact hAlone
  | turn t answer =>
      obtain ⟨task, s', task', spawned, hTask, hTurn, hd⟩ := commands.next_turn_eq_some.mp hNext
      obtain ⟨hTurns, rfl⟩ := turn_turns hTurn
      have hHands := turn_hands hTurn (fun h => (hc.of_setup hTask h).1)
        (fun h => (hc.of_setup hTask h).2)
      have hSetups := tally_turn setups setups s' task' hTask (fun _ _ _ _ => rfl)
        (fun _ new hNew => absurd hNew (List.not_mem_nil))
      have hClosings := tally_turn closings closings s' task' hTask (fun _ _ _ _ => rfl)
        (fun _ new hNew => absurd hNew (List.not_mem_nil))
      rw [← hd] at hSetups hClosings
      have hLocker := hc.locker_turn hTask hTurns
      rw [List.append_nil] at hd
      have hShared : d.shared = s' := by rw [hd]
      have hStarting := hc.starting
      have hAlone := hc.alone
      simp only [setups, closings] at hSetups hClosings
      refine ⟨hHeld, by rw [hd]; exact hLocker, ?_, ?_⟩
      · rw [hShared]
        cases hHands with
        | passed _ _ _ hFlag hOwner => omega
        | reserved paths hFree hNone hFlag =>
            rw [hFlag] at hStarting
            change _ + 0 = _ + 1 at hSetups
            change _ = 1
            simp only [Bool.toNat_false] at hStarting
            omega
      · unfold owners at hAlone ⊢
        rw [hShared]
        cases hHands with
        | passed _ _ _ hFlag hOwner => omega
        | reserved paths hFree hNone hFlag =>
            rw [hFlag, Bool.toNat_false] at hStarting
            have hClosed := hc.closings_of_free hFree
            change _ + 0 = _ + 1 at hSetups
            change _ + 0 = _ + 0 at hClosings
            have hShare : (c.shared.setStarting true).app.currentShare = none := hNone
            rw [hShare, Option.isSome_none, Bool.toNat_false]
            omega

end SlotAccounted

section
variable {s s' : Session} {self fresh : Nat}

/-- Each turn of a send brings it nearer to its end. -/
theorem sendTurn_turnsLeft {paths : List String} {stage stage' : SendStage} {answer : Answer}
    (hTurn : Task.sendTurn s paths stage answer = some (s', stage')) :
    stage'.turnsLeft < stage.turnsLeft := by
  unfold Task.sendTurn at hTurn
  split at hTurn
  · obtain ⟨_, hTaken⟩ := locked_eq_some.mp hTurn
    unfold Session.reserve at hTaken
    split at hTaken
    · cases hTaken
      simp [SendStage.turnsLeft]
    · cases hTaken
      simp [SendStage.turnsLeft]
  · cases hTurn
    simp [SendStage.turnsLeft]
  · cases hTurn
    simp [SendStage.turnsLeft]
  · cases hTurn
    simp [SendStage.turnsLeft]
  · cases hTurn
    simp [SendStage.turnsLeft]
  · cases hTurn
    simp [SendStage.turnsLeft]
  · cases hTurn
    simp [SendStage.turnsLeft]
  · obtain ⟨_, hTaken⟩ := locked_eq_some.mp hTurn
    unfold Session.install at hTaken
    split at hTaken
    · cases hTaken
      simp [SendStage.turnsLeft]
    · cases hTaken
      simp [SendStage.turnsLeft]
  · obtain ⟨_, hTaken⟩ := locked_eq_some.mp hTurn
    cases hTaken
    simp [SendStage.turnsLeft]
  · cases hTurn

/-- Each turn of a stop brings it nearer to its end. -/
theorem stopTurn_turnsLeft {stage stage' : StopStage} {answer : Answer}
    (hTurn : Task.stopTurn s self fresh stage answer = some (s', stage')) :
    stage'.turnsLeft < stage.turnsLeft := by
  have hHost : ∀ s : Session, (s.stopHost fresh).2.turnsLeft ≤ 1 := by
    intro s
    unfold Session.stopHost
    split
    · exact Nat.le_refl 1
    · exact Nat.zero_le 1
  unfold Task.stopTurn at hTurn
  split at hTurn
  · obtain ⟨_, hTaken⟩ := locked_eq_some.mp hTurn
    unfold Session.beginStop at hTaken
    split at hTaken
    · cases hTaken
      decide
    · have hLeft := hHost (s.hold self)
      rw [hTaken] at hLeft
      exact Nat.lt_of_le_of_lt hLeft (by decide)
  · cases hTurn
    decide
  · cases hTurn
    decide
  · have hLeft := hHost s
    rw [Option.some.inj hTurn] at hLeft
    exact Nat.lt_of_le_of_lt hLeft (by decide)
  · cases hTurn
    decide
  · cases hTurn

/-- Each turn brings its call nearer to its end. -/
theorem turn_turnsLeft {task task' : Task} {spawned : List Task} {answer : Answer}
    (hTurn : task.turn s self fresh answer = some (s', task', spawned)) :
    task'.turnsLeft < task.turnsLeft := by
  cases task with
  | sending paths stage =>
      obtain ⟨⟨found, stage'⟩, hFound, hEq⟩ := Option.map_eq_some_iff.mp hTurn
      cases hEq
      exact sendTurn_turnsLeft hFound
  | stopping stage =>
      obtain ⟨⟨found, stage'⟩, hFound, hEq⟩ := Option.map_eq_some_iff.mp hTurn
      cases hEq
      exact stopTurn_turnsLeft hFound

/-- With the lock free every command that has not returned can go on. -/
theorem turn_of_free {task : Task} (hFree : s.lock = none) (hNot : task.isReturned = false) :
    ∃ answer r, task.turn s self fresh answer = some r := by
  cases task with
  | sending paths stage =>
      cases stage with
      | reserving => exact ⟨.ok, _, by rw [Task.turn, Task.sendTurn, Task.locked, hFree]; rfl⟩
      | preparing => exact ⟨.ok, _, rfl⟩
      | resolvingRelay => exact ⟨.ok, _, rfl⟩
      | starting => exact ⟨.ticket "", _, rfl⟩
      | installing ticket =>
          exact ⟨.ok, _, by rw [Task.turn, Task.sendTurn, Task.locked, hFree]; rfl⟩
      | unreserving error =>
          exact ⟨.ok, _, by rw [Task.turn, Task.sendTurn, Task.locked, hFree]; rfl⟩
      | returned result => cases hNot
  | stopping stage =>
      cases stage with
      | locking => exact ⟨.ok, _, by rw [Task.turn, Task.stopTurn, Task.locked, hFree]; rfl⟩
      | shuttingDown => exact ⟨.ok, _, rfl⟩
      | closing => exact ⟨.ok, _, rfl⟩
      | stoppingHost => exact ⟨.ok, _, rfl⟩
      | returned => cases hNot

/-- The stop that holds the lock can go on. -/
theorem turn_of_holds {stage : StopStage} (hHolds : stage.holds = true) :
    ∃ r, (Task.stopping stage).turn s self fresh .ok = some r := by
  cases stage with
  | shuttingDown => exact ⟨_, rfl⟩
  | closing => exact ⟨_, rfl⟩
  | stoppingHost => exact ⟨_, rfl⟩
  | locking => cases hHolds
  | returned => cases hHolds

end

/-- Nothing waits for ever: as long as a command has not returned one can go on. -/
theorem SlotAccounted.progress {c : SessionConfig} (hc : SlotAccounted c)
    (hNot : ∃ task ∈ c.tasks, task.isReturned = false) :
    ∃ t answer d, step c (.turn t answer) = some d := by
  have hMove : ∀ (t : Nat) (task : Task) (answer : Answer) (r : Session × Task × List Task),
      c.tasks[t]? = some task →
      task.turn c.shared t c.tasks.length answer = some r →
      ∃ t answer d, step c (.turn t answer) = some d := by
    rintro t task answer ⟨s', task', spawned⟩ hTask hTurn
    exact ⟨t, answer, _, commands.next_turn_eq_some.mpr
      ⟨task, s', task', spawned, hTask, hTurn, rfl⟩⟩
  cases hLock : c.shared.lock with
  | none =>
      obtain ⟨task, hMem, hRunning⟩ := hNot
      obtain ⟨t, hTask⟩ := List.getElem?_of_mem hMem
      obtain ⟨answer, r, hTurn⟩ := @turn_of_free c.shared t c.tasks.length task hLock hRunning
      exact hMove t task answer r hTask hTurn
  | some t =>
      obtain ⟨stage, hTask, hHolds⟩ := hc.locker t hLock
      obtain ⟨r, hTurn⟩ := @turn_of_holds c.shared t c.tasks.length stage hHolds
      exact hMove t _ .ok r hTask hTurn

def isCall : SessionLabel → Bool
  | .call _ => true
  | _ => false

def isTurn : SessionLabel → Bool
  | .turn _ _ => true
  | _ => false

/-- Every turn is one of the at most five that its command takes. -/
theorem turns_bounded {steps : List SessionLabel} {c d : SessionConfig}
    (hRun : exec step c steps = some d) :
    steps.countP isTurn + d.tally (fun _ task => task.turnsLeft) ≤
      5 * steps.countP isCall + c.tally (fun _ task => task.turnsLeft) := by
  induction steps generalizing c with
  | nil =>
      obtain rfl := Option.some.inj hRun
      simp
  | cons l steps ih =>
      obtain ⟨m, hNext, hRest⟩ := Option.bind_eq_some_iff.mp hRun
      have hTail := ih hRest
      cases l with
      | restart reset => cases reset
      | call command =>
          have hAdded := tally_call (fun _ task => task.turnsLeft) (fun _ task => task.turnsLeft)
            hNext fun _ _ _ => rfl
          have hFive := (start_idle command).2.2
          change _ = _ + (Command.start command).turnsLeft at hAdded
          rw [List.countP_cons_of_neg (by simp [isTurn]), List.countP_cons_of_pos (by rfl)]
          omega
      | turn t answer =>
          obtain ⟨task, s', task', spawned, hTask, hTurn, rfl⟩ :=
            commands.next_turn_eq_some.mp hNext
          obtain ⟨_, rfl⟩ := turn_turns hTurn
          have hMoved := tally_turn (fun _ task => task.turnsLeft) (fun _ task => task.turnsLeft)
            s' task' hTask (fun _ _ _ _ => rfl) (fun _ new hNew => absurd hNew List.not_mem_nil)
          have hLess := turn_turnsLeft hTurn
          rw [List.countP_cons_of_pos (by rfl), List.countP_cons_of_neg (by simp [isCall])]
          omega

def isTurnOf (t : Nat) : SessionLabel → Bool
  | .turn u _ => u == t
  | _ => false

/-- The turns that a command has left at most, also one that is yet to be called. -/
def turnsDue (c : SessionConfig) (t : Nat) : Nat := c.tasks[t]?.elim 5 Task.turnsLeft

/-- Whatever a step does, it takes no turn of a command but its own from what is left. -/
theorem turnsDue_step {c d : SessionConfig} {l : SessionLabel} (hNext : step c l = some d)
    (t : Nat) : (isTurnOf t l).toNat + turnsDue d t ≤ turnsDue c t := by
  cases l with
  | restart reset => cases reset
  | call command =>
      obtain rfl := Option.some.inj hNext
      show 0 + turnsDue _ t ≤ turnsDue c t
      rw [Nat.zero_add, turnsDue, turnsDue]
      cases hTask : c.tasks[t]? with
      | some task =>
          have hLength := (List.getElem?_eq_some_iff.mp hTask).1
          exact Nat.le_of_eq (by rw [List.getElem?_append_left hLength, hTask])
      | none =>
          dsimp only
          rw [List.getElem?_append_right (List.getElem?_eq_none_iff.mp hTask),
            List.getElem?_singleton]
          split
          · exact (start_idle command).2.2
          · exact Nat.le_refl 5
  | turn u answer =>
      obtain ⟨task, s', task', spawned, hTask, hTurn, rfl⟩ := commands.next_turn_eq_some.mp hNext
      obtain ⟨_, rfl⟩ := turn_turns hTurn
      rw [List.append_nil, isTurnOf, turnsDue, turnsDue]
      by_cases hSame : u = t
      · subst hSame
        rw [List.getElem?_set_self (List.getElem?_eq_some_iff.mp hTask).1, hTask, beq_self_eq_true]
        have hLess := turn_turnsLeft hTurn
        simp only [Option.elim_some, Bool.toNat_true]
        omega
      · rw [beq_false_of_ne hSame, Bool.toNat_false, Nat.zero_add]
        exact Nat.le_of_eq (by rw [List.getElem?_set_ne hSame])

/-- No command takes more turns than it had left. -/
theorem turns_of_call_bounded {steps : List SessionLabel} {c d : SessionConfig}
    (hRun : exec step c steps = some d) (t : Nat) :
    steps.countP (isTurnOf t) + turnsDue d t ≤ turnsDue c t := by
  induction steps generalizing c with
  | nil =>
      obtain rfl := Option.some.inj hRun
      simp
  | cons l steps ih =>
      obtain ⟨m, hNext, hRest⟩ := Option.bind_eq_some_iff.mp hRun
      have hTail := ih hRest
      have hHead := turnsDue_step hNext t
      cases hOwn : isTurnOf t l with
      | true =>
          rw [hOwn, Bool.toNat_true] at hHead
          rw [List.countP_cons_of_pos hOwn]
          omega
      | false =>
          rw [List.countP_cons_of_neg (by simp [hOwn])]
          omega

/-- A send that is refused finds the slot with an owner, and one that goes on finds none. -/
theorem SlotAccounted.reserve_iff {c d : SessionConfig} (hc : SlotAccounted c) {t : Nat}
    {paths : List String} {answer : Answer}
    (hTask : c.tasks[t]? = some (.sending paths .reserving))
    (hNext : step c (.turn t answer) = some d) :
    d.tasks[t]? = some (.sending paths
      (if owners c = 0 then .preparing else .returned (.error alreadySharing))) := by
  obtain ⟨task, s', task', spawned, hFound, hTurn, rfl⟩ := commands.next_turn_eq_some.mp hNext
  obtain rfl := Option.some.inj (hTask.symm.trans hFound)
  obtain ⟨⟨found, stage'⟩, hSend, hEq⟩ := Option.map_eq_some_iff.mp hTurn
  cases hEq
  have hLength : t < c.tasks.length := (List.getElem?_eq_some_iff.mp hTask).1
  rw [List.append_nil, List.getElem?_set_self hLength]
  cases answer with
  | ticket ticket => cases hSend
  | failed error => cases hSend
  | ok =>
      obtain ⟨hFree, hTaken⟩ := locked_eq_some.mp hSend
      have hStarting := hc.starting
      have hClosed := hc.closings_of_free hFree
      unfold Session.reserve at hTaken
      unfold owners
      rw [hStarting, hClosed]
      cases hShare : c.shared.app.currentShare with
      | some share =>
          rw [if_pos (by rw [hShare]; rfl)] at hTaken
          cases hTaken
          rw [if_neg (by rw [Option.isSome_some, Bool.toNat_true]; omega)]
      | none =>
          cases hFlag : c.shared.app.isShareStarting with
          | true =>
              rw [if_pos (by rw [hShare, hFlag]; rfl)] at hTaken
              cases hTaken
              rw [if_neg (by rw [Bool.toNat_true]; omega)]
          | false =>
              rw [if_neg (by rw [hShare, hFlag]; exact Bool.false_ne_true)] at hTaken
              cases hTaken
              rfl

/-- A setup that succeeded is never thrown away: the last lock section of a send
finds the slot free. -/
theorem SlotAccounted.installed {c d : SessionConfig} (hc : SlotAccounted c) {t : Nat}
    {paths : List String} {ticket : String} {answer : Answer}
    (hTask : c.tasks[t]? = some (.sending paths (.installing ticket)))
    (hNext : step c (.turn t answer) = some d) :
    d.tasks[t]? = some (.sending paths (.returned (.ok ticket))) ∧
      d.shared.app.currentShare = some ⟨ticket, paths.head?.getD "."⟩ := by
  obtain ⟨task, s', task', spawned, hFound, hTurn, rfl⟩ := commands.next_turn_eq_some.mp hNext
  obtain rfl := Option.some.inj (hTask.symm.trans hFound)
  obtain ⟨⟨found, stage'⟩, hSend, hEq⟩ := Option.map_eq_some_iff.mp hTurn
  cases hEq
  have hLength : t < c.tasks.length := (List.getElem?_eq_some_iff.mp hTask).1
  rw [List.append_nil, List.getElem?_set_self hLength]
  cases answer with
  | ticket ticket => cases hSend
  | failed error => cases hSend
  | ok =>
      obtain ⟨_, hTaken⟩ := locked_eq_some.mp hSend
      have hNone := (hc.of_setup hTask rfl).2
      rw [Session.install, if_neg (by rw [hNone]; exact Bool.false_ne_true)] at hTaken
      cases hTaken
      exact ⟨rfl, rfl⟩

/-- The slot for a share has one owner at most in every run: a send in its setup,
the share that is installed, or a stop that closes one. So no two shares are ever
online together. A send is refused exactly when there is an owner, a setup that
succeeded is always installed under its own ticket, the flag is up only while a
send is in its setup, and no command waits for ever: each takes five turns at
most, and while one has not returned one can take its next. -/
theorem one_share_at_a_time {node : Bool} {steps : List SessionLabel} {c : SessionConfig}
    (hRun : exec step (launched node) steps = some c) :
    owners c ≤ 1 ∧
    (c.shared.app.isShareStarting = true ↔ ∃ task ∈ c.tasks, task.inSetup = true) ∧
    (∀ t paths answer d, c.tasks[t]? = some (.sending paths .reserving) →
      step c (.turn t answer) = some d → d.tasks[t]? = some (.sending paths
        (if owners c = 0 then .preparing else .returned (.error alreadySharing)))) ∧
    (∀ t paths ticket answer d, c.tasks[t]? = some (.sending paths (.installing ticket)) →
      step c (.turn t answer) = some d →
        d.tasks[t]? = some (.sending paths (.returned (.ok ticket))) ∧
        d.shared.app.currentShare = some ⟨ticket, paths.head?.getD "."⟩) ∧
    ((∃ task ∈ c.tasks, task.isReturned = false) →
      ∃ t answer d, step c (.turn t answer) = some d) ∧
    (∀ t, steps.countP (isTurnOf t) ≤ 5) ∧
    steps.countP isTurn ≤ 5 * steps.countP isCall := by
  have hc : SlotAccounted c :=
    exec_invariant (fun _ _ _ hs hNext => hs.kept hNext) hRun (.launched node)
  refine ⟨hc.alone, ?_, fun _ _ _ _ hTask hNext => hc.reserve_iff hTask hNext,
    fun _ _ _ _ _ hTask hNext => hc.installed hTask hNext, hc.progress, fun t => ?_, ?_⟩
  · constructor
    · intro hFlag
      by_contra hNone
      have hZero : c.tally setups = 0 := by
        apply tally_eq_zero
        intro t task hTask
        unfold setups
        cases hSetup : task.inSetup with
        | false => rfl
        | true => exact absurd ⟨task, List.mem_of_getElem? hTask, hSetup⟩ hNone
      have hStarting := hc.starting
      rw [hZero, hFlag] at hStarting
      cases hStarting
    · rintro ⟨task, hMem, hSetup⟩
      obtain ⟨t, hTask⟩ := List.getElem?_of_mem hMem
      exact (hc.of_setup hTask hSetup).1
  · have hDue := turns_of_call_bounded hRun t
    change _ ≤ 5 at hDue
    omega
  · have hBound := turns_bounded hRun
    change _ ≤ _ + 0 at hBound
    omega

/-- A second send that is called while the first is in its setup. -/
theorem one_share_at_a_time_refused : ∃ c d,
    exec step (launched false) [.call (.sendItems ["/home/a.txt"]), .turn 0 .ok,
      .call (.sendItems ["/home/b.txt"])] = some c ∧ step c (.turn 1 .ok) = some d ∧
    d.tasks[1]? = some (.sending ["/home/b.txt"]
      (if owners c = 0 then .preparing else .returned (.error alreadySharing))) := by
  have hBoth : ∃ c, exec step (launched false) [.call (.sendItems ["/home/a.txt"]), .turn 0 .ok,
      .call (.sendItems ["/home/b.txt"])] = some c ∧
      c.tasks[1]? = some (.sending ["/home/b.txt"] .reserving) ∧
      ∃ d, step c (.turn 1 .ok) = some d ∧ True := by
    decide
  obtain ⟨c, hRun, hTask, d, hNext, _⟩ := hBoth
  exact ⟨c, d, hRun, hNext, (one_share_at_a_time hRun).2.2.1 1 _ .ok d hTask hNext⟩

end AltSendme.Desktop.Sharing
