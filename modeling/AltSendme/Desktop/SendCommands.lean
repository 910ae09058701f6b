import AltSendme.Execution.Pool

/-! The commands `send_items` and `stop_sharing` of the desktop app. A send
takes the lock of `AppState` twice, with a long setup between; a stop holds it
over its awaits. -/
namespace AltSendme.Desktop.Sharing
open Execution

structure ShareHandle where
  ticket : String
  path : String
  deriving DecidableEq

/-- The fields of `AppState` that the two commands use. -/
structure AppState where
  node : Bool
  currentShare : Option ShareHandle
  isShareStarting : Bool
  deriving DecidableEq

/-- `lock` is the stop that holds the lock over an await. `stoppedBefore` is the
number of calls made when a stop last returned; no command reads it. -/
structure Session where
  app : AppState
  lock : Option Nat
  stoppedBefore : Nat
  deriving DecidableEq

inductive SendStage where
  /-- the first lock section -/
  | reserving
  /-- `build_send_metadata` -/
  | preparing
  /-- `resolve_relay_mode_with_fallback` -/
  | resolvingRelay
  /-- `start_share_items` -/
  | starting
  /-- the last lock section -/
  | installing (ticket : String)
  | unreserving (error : String)
  | returned (result : Except String String)
  deriving DecidableEq

inductive StopStage where
  | locking
  /-- `router.shutdown()`, for two seconds at most -/
  | shuttingDown
  /-- `endpoint.close()` -/
  | closing
  | stoppingHost
  | returned
  deriving DecidableEq

/-- A command that was called. -/
inductive Task where
  | sending (paths : List String) (stage : SendStage)
  | stopping (stage : StopStage)
  deriving DecidableEq

/-- How an awaited call ends; a lock is awaited too. -/
inductive Answer where
  | ok
  | ticket (ticket : String)
  | failed (error : String)
  deriving DecidableEq

inductive Command where
  | sendItems (paths : List String)
  | stopSharing
  deriving DecidableEq

/-- The calls of a stop's stages are made with the lock held. -/
def StopStage.holds : StopStage → Bool
  | .shuttingDown | .closing | .stoppingHost => true
  | .locking | .returned => false

def alreadySharing : String := "Already sharing a file. Please stop current share first."

namespace Session

def setStarting (s : Session) (starting : Bool) : Session :=
  { s with app := { s.app with isShareStarting := starting } }

/-- `send_items` reserves the slot before its setup. -/
def reserve (s : Session) : Session × SendStage :=
  if s.app.currentShare.isSome || s.app.isShareStarting then (s, .returned (.error alreadySharing))
  else (s.setStarting true, .preparing)

/-- `send_items` after a setup that succeeded. -/
def install (s : Session) (paths : List String) (ticket : String) : Session × SendStage :=
  if s.app.currentShare.isSome then (s.setStarting false, .returned (.error alreadySharing))
  else
    ({ s with app :=
        { s.app with
          isShareStarting := false
          currentShare := some ⟨ticket, paths.head?.getD "."⟩ } },
      .returned (.ok ticket))

def unreserve (s : Session) (error : String) : Session × SendStage :=
  (s.setStarting false, .returned (.error error))

/-- A stop takes the share out and keeps the lock. -/
def hold (s : Session) (self : Nat) : Session :=
  { s with app := { s.app with currentShare := none }, lock := some self }

/-- A stop returns when `fresh` calls were made. -/
def endStop (s : Session) (fresh : Nat) : Session := { s with lock := none, stoppedBefore := fresh }

/-- What is left of a stop when the share is gone. -/
def stopHost (s : Session) (fresh : Nat) : Session × StopStage :=
  if s.app.node then (s, .stoppingHost) else (s.endStop fresh, .returned)

def beginStop (s : Session) (self fresh : Nat) : Session × StopStage :=
  if s.app.currentShare.isSome then (s.hold self, .shuttingDown) else (s.hold self).stopHost fresh

end Session

namespace Task

/-- A lock section waits for the lock. -/
def locked (s : Session) {Stage : Type} (taken : Session × Stage) : Option (Session × Stage) :=
  if s.lock.isSome then none else some taken

/-- One turn of `send_items`. -/
def sendTurn (s : Session) (paths : List String) : SendStage → Answer → Option (Session × SendStage)
  | .reserving, .ok => locked s s.reserve
  | .preparing, .ok => some (s, .resolvingRelay)
  | .preparing, .failed error => some (s, .unreserving error)
  | .resolvingRelay, .ok => some (s, .starting)
  | .resolvingRelay, .failed error => some (s, .unreserving error)
  | .starting, .ticket ticket => some (s, .installing ticket)
  | .starting, .failed error => some (s, .unreserving ("Failed to start sharing: " ++ error))
  | .installing ticket, .ok => locked s (s.install paths ticket)
  | .unreserving error, .ok => locked s (s.unreserve error)
  | _, _ => none

/-- One turn of `stop_sharing`. What the router says to its shutdown is only logged. -/
def stopTurn (s : Session) (self fresh : Nat) : StopStage → Answer → Option (Session × StopStage)
  | .locking, .ok => locked s (s.beginStop self fresh)
  | .shuttingDown, .ok => some (s, .closing)
  | .shuttingDown, .failed _ => some (s, .closing)
  | .closing, .ok => some (s.stopHost fresh)
  | .stoppingHost, .ok => some (s.endStop fresh, .returned)
  | _, _ => none

def turn (s : Session) (self fresh : Nat) : Task → Answer → Option (Session × Task × List Task)
  | .sending paths stage, answer =>
      (sendTurn s paths stage answer).map fun r => (r.1, .sending paths r.2, [])
  | .stopping stage, answer =>
      (stopTurn s self fresh stage answer).map fun r => (r.1, .stopping r.2, [])

def isSend : Task → Bool
  | .sending _ _ => true
  | .stopping _ => false

def isReturned : Task → Bool
  | .sending _ (.returned _) | .stopping .returned => true
  | _ => false

/-- The setup succeeded, and the share is about to be put in. -/
def installs : Task → Bool
  | .sending _ (.installing _) => true
  | _ => false

end Task

/-- The paths are looked at before anything is awaited. -/
def Command.start : Command → Task
  | .sendItems paths =>
      .sending paths (if paths.isEmpty then .returned (.error "No paths provided") else .reserving)
  | .stopSharing => .stopping .locking

def commands : Pool Session Task Answer Command Empty where
  turn := Task.turn
  start := Command.start
  restart := fun none _ => nomatch none

abbrev SessionConfig := Pool.Config Session Task

abbrev SessionLabel := Pool.Label Answer Command Empty

def step : SessionConfig → SessionLabel → Option SessionConfig := commands.next

/-- A session right after the app has started, with or without its device node. -/
def launched (node : Bool) : SessionConfig := ⟨⟨⟨node, none, false⟩, none, 0⟩, []⟩

/-- A send was called after a stop last returned. -/
def hasLaterSend (c : SessionConfig) : Bool :=
  ((c.tasks.map Task.isSend).drop c.shared.stoppedBefore).any id

/-- With no send after the return of a stop there is no share. -/
def StaysStopped (c : SessionConfig) : Prop :=
  hasLaterSend c = false → c.shared.app.currentShare = none

/-- A share is put in only when some send was called after a stop last returned. -/
def InstallsUnstopped (c : SessionConfig) : SessionLabel → Prop
  | .turn t _ => ∀ task ∈ c.tasks[t]?, task.installs = true → hasLaterSend c = true
  | _ => True

instance (c : SessionConfig) (l : SessionLabel) : Decidable (InstallsUnstopped c l) := by
  unfold InstallsUnstopped
  split
  · exact @Option.decidableForallMem _ _ (fun _ => inferInstance) _
  · infer_instance

/-- Only whether a send is starting may have changed. -/
def SameShare (s t : Session) : Prop :=
  t.lock = s.lock ∧ t.stoppedBefore = s.stoppedBefore ∧ t.app.currentShare = s.app.currentShare

/-- What a turn of a command can do. -/
inductive Turns (s : Session) (self fresh : Nat) : Task → Session → Task → Prop where
  | worked (paths : List String) (stage stage' : SendStage) (s' : Session) (hSame : SameShare s s')
      (hNot : (Task.sending paths stage).installs = true → s.app.currentShare.isSome = true) :
      Turns s self fresh (.sending paths stage) s' (.sending paths stage')
  | installed (paths : List String) (ticket : String) (hFree : s.lock = none)
      (hNone : s.app.currentShare = none) :
      Turns s self fresh (.sending paths (.installing ticket)) (s.install paths ticket).1
        (.sending paths (.returned (.ok ticket)))
  | held (stage : StopStage) (hFree : s.lock = none) (hHolds : stage.holds = true) :
      Turns s self fresh (.stopping .locking) (s.hold self) (.stopping stage)
  | moved (stage stage' : StopStage) (hHolds : stage.holds = true) (hHolds' : stage'.holds = true) :
      Turns s self fresh (.stopping stage) s (.stopping stage')
  | ended (stage : StopStage) (s' : Session)
      (hHolds : stage.holds = true ∧ s' = s ∨ s.lock = none ∧ s' = s.hold self) :
      Turns s self fresh (.stopping stage) (s'.endStop fresh) (.stopping .returned)

theorem locked_eq_some {s : Session} {Stage : Type} {taken found : Session × Stage} :
    Task.locked s taken = some found ↔ s.lock = none ∧ taken = found := by
  unfold Task.locked
  cases s.lock <;> simp

theorem reserve_same (s : Session) : SameShare s s.reserve.1 := by
  unfold Session.reserve
  split <;> exact ⟨rfl, rfl, rfl⟩

theorem install_of_none {s : Session} (paths : List String) (ticket : String)
    (hNone : s.app.currentShare = none) :
    (s.install paths ticket).1.lock = s.lock ∧
      (s.install paths ticket).1.stoppedBefore = s.stoppedBefore ∧
      (s.install paths ticket).1.app.currentShare = some ⟨ticket, paths.head?.getD "."⟩ := by
  rw [Session.install, if_neg (by rw [hNone]; nofun)]
  exact ⟨rfl, rfl, rfl⟩

/-- A turn of a send is one of the named ones. -/
theorem sendTurn_turns {s s' : Session} {self fresh : Nat} {paths : List String}
    {stage stage' : SendStage} {answer : Answer}
    (hTurn : Task.sendTurn s paths stage answer = some (s', stage')) :
    Turns s self fresh (.sending paths stage) s' (.sending paths stage') := by
  unfold Task.sendTurn at hTurn
  split at hTurn
  · obtain ⟨_, hTaken⟩ := locked_eq_some.mp hTurn
    obtain rfl : s.reserve.1 = s' := congrArg Prod.fst hTaken
    exact .worked paths _ _ _ (reserve_same s) nofun
  · cases hTurn
    exact .worked paths _ _ _ ⟨rfl, rfl, rfl⟩ nofun
  · cases hTurn
    exact .worked paths _ _ _ ⟨rfl, rfl, rfl⟩ nofun
  · cases hTurn
    exact .worked paths _ _ _ ⟨rfl, rfl, rfl⟩ nofun
  · cases hTurn
    exact .worked paths _ _ _ ⟨rfl, rfl, rfl⟩ nofun
  · cases hTurn
    exact .worked paths _ _ _ ⟨rfl, rfl, rfl⟩ nofun
  · cases hTurn
    exact .worked paths _ _ _ ⟨rfl, rfl, rfl⟩ nofun
  · next ticket =>
      obtain ⟨hFree, hTaken⟩ := locked_eq_some.mp hTurn
      cases hShare : s.app.currentShare with
      | some share =>
          rw [Session.install, if_pos (by rw [hShare]; rfl)] at hTaken
          cases hTaken
          exact .worked paths _ _ _ ⟨rfl, rfl, rfl⟩ fun _ => by rw [hShare]; rfl
      | none =>
          have hInstalled : Turns s self fresh (.sending paths (.installing ticket))
              (s.install paths ticket).1 (.sending paths (.returned (.ok ticket))) :=
            .installed paths ticket hFree hShare
          rw [Session.install, if_neg (by rw [hShare]; nofun)] at hTaken hInstalled
          cases hTaken
          exact hInstalled
  · obtain ⟨_, hTaken⟩ := locked_eq_some.mp hTurn
    cases hTaken
    exact .worked paths _ _ _ ⟨rfl, rfl, rfl⟩ nofun
  · cases hTurn

/-- A turn of a stop is one of the named ones. -/
theorem stopTurn_turns {s s' : Session} {self fresh : Nat} {stage stage' : StopStage}
    {answer : Answer} (hTurn : Task.stopTurn s self fresh stage answer = some (s', stage')) :
    Turns s self fresh (.stopping stage) s' (.stopping stage') := by
  unfold Task.stopTurn at hTurn
  split at hTurn
  · obtain ⟨hFree, hTaken⟩ := locked_eq_some.mp hTurn
    unfold Session.beginStop at hTaken
    split at hTaken
    · cases hTaken
      exact .held .shuttingDown hFree rfl
    · unfold Session.stopHost at hTaken
      split at hTaken
      · cases hTaken
        exact .held .stoppingHost hFree rfl
      · cases hTaken
        exact .ended .locking _ (Or.inr ⟨hFree, rfl⟩)
  · cases hTurn
    exact .moved _ _ rfl rfl
  · cases hTurn
    exact .moved _ _ rfl rfl
  · have hTaken := Option.some.inj hTurn
    unfold Session.stopHost at hTaken
    split at hTaken
    · cases hTaken
      exact .moved _ _ rfl rfl
    · cases hTaken
      exact .ended _ _ (Or.inl ⟨rfl, rfl⟩)
  · cases hTurn
    exact .ended _ _ (Or.inl ⟨rfl, rfl⟩)
  · cases hTurn

/-- Every turn is one of the named ones. -/
theorem turn_turns {s s' : Session} {self fresh : Nat} {task task' : Task} {spawned : List Task}
    {answer : Answer} (hTurn : task.turn s self fresh answer = some (s', task', spawned)) :
    Turns s self fresh task s' task' ∧ spawned = [] := by
  cases task with
  | sending paths stage =>
      obtain ⟨⟨found, stage'⟩, hFound, hEq⟩ := Option.map_eq_some_iff.mp hTurn
      cases hEq
      exact ⟨sendTurn_turns hFound, rfl⟩
  | stopping stage =>
      obtain ⟨⟨found, stage'⟩, hFound, hEq⟩ := Option.map_eq_some_iff.mp hTurn
      cases hEq
      exact ⟨stopTurn_turns hFound, rfl⟩

/-- The lock is with the stop that holds it, and while it is there is no share. -/
structure LockHeld (c : SessionConfig) : Prop where
  holder : ∀ (t : Nat) (stage : StopStage), c.tasks[t]? = some (.stopping stage) →
    stage.holds = true → c.shared.lock = some t
  empty : c.shared.lock ≠ none → c.shared.app.currentShare = none

/-- At the launch nobody holds the lock. -/
theorem lockHeld_launched (node : Bool) : LockHeld (launched node) := by
  refine ⟨fun t stage hTask => ?_, fun _ => rfl⟩
  cases hTask

/-- A turn of a command, with its place in the configuration. -/
theorem step_turn {c d : SessionConfig} {t : Nat} {answer : Answer}
    (hNext : step c (.turn t answer) = some d) :
    ∃ task s' task', c.tasks[t]? = some task ∧
      Turns c.shared t c.tasks.length task s' task' ∧ d = ⟨s', c.tasks.set t task'⟩ := by
  obtain ⟨task, s', task', spawned, hTask, hTurn, rfl⟩ := commands.next_turn_eq_some.mp hNext
  obtain ⟨hTurns, rfl⟩ := turn_turns hTurn
  exact ⟨task, s', task', hTask, hTurns, by rw [List.append_nil]⟩

/-- One step keeps the lock with one holder. -/
theorem lockHeld_step {c d : SessionConfig} {l : SessionLabel} (hc : LockHeld c)
    (hNext : step c l = some d) : LockHeld d := by
  cases l with
  | call command =>
      obtain rfl := Option.some.inj hNext
      refine ⟨fun t stage hTask hHolds => ?_, hc.empty⟩
      rcases Pool.getElem?_after_call hTask with hOld | ⟨_, hNew⟩
      · exact hc.holder t stage hOld hHolds
      · cases command <;> cases hNew
        cases hHolds
  | restart reset => exact nomatch reset
  | turn t answer =>
      obtain ⟨task, s', task', hTask, hTurns, rfl⟩ := step_turn hNext
      have hFound : ∀ u found, (c.tasks.set t task')[u]? = some found →
          u = t ∧ found = task' ∨ u ≠ t ∧ c.tasks[u]? = some found := by
        intro u found hu
        by_cases hut : u = t
        · subst hut
          rw [List.getElem?_set_self (List.getElem?_eq_some_iff.mp hTask).1] at hu
          exact Or.inl ⟨rfl, (Option.some.inj hu).symm⟩
        · rw [List.getElem?_set_ne (Ne.symm hut)] at hu
          exact Or.inr ⟨hut, hu⟩
      -- a stop that does not move still holds the lock as it did
      have hOthers : ∀ u stage, u ≠ t → c.tasks[u]? = some (.stopping stage) →
          stage.holds = true → c.shared.lock = some u := fun u stage _ => hc.holder u stage
      cases hTurns with
      | worked paths stage stage' s' hSame =>
          obtain ⟨hLock, _, hShare⟩ := hSame
          refine ⟨fun u stop hu hHolds => ?_, fun hLocked => ?_⟩
          · rcases hFound u _ hu with ⟨_, hMoved⟩ | ⟨hne, hOld⟩
            · cases hMoved
            · exact hLock.trans (hOthers u stop hne hOld hHolds)
          · exact hShare.trans (hc.empty (hLock ▸ hLocked))
      | installed paths ticket hFree hNone =>
          have hKept : (c.shared.install paths ticket).1.lock = none :=
            (install_of_none paths ticket hNone).1.trans hFree
          refine ⟨fun u stop hu hHolds => ?_, fun hLocked => absurd hKept hLocked⟩
          rcases hFound u _ hu with ⟨_, hMoved⟩ | ⟨hne, hOld⟩
          · cases hMoved
          · rw [hOthers u stop hne hOld hHolds] at hFree
            cases hFree
      | held stage hFree hHolds =>
          refine ⟨fun u stop hu hStop => ?_, fun _ => rfl⟩
          rcases hFound u _ hu with ⟨rfl, _⟩ | ⟨hne, hOld⟩
          · rfl
          · rw [hOthers u stop hne hOld hStop] at hFree
            cases hFree
      | moved stage stage' hHolds hHolds' =>
          refine ⟨fun u stop hu hStop => ?_, hc.empty⟩
          rcases hFound u _ hu with ⟨rfl, _⟩ | ⟨hne, hOld⟩
          · exact hc.holder u stage hTask hHolds
          · exact hOthers u stop hne hOld hStop
      | ended stage s' hHolds =>
          refine ⟨fun u stop hu hStop => ?_, fun hLocked => absurd rfl hLocked⟩
          rcases hFound u _ hu with ⟨_, hMoved⟩ | ⟨hne, hOld⟩
          · cases hMoved
            cases hStop
          · have hOther := hOthers u stop hne hOld hStop
            rcases hHolds with ⟨hSelf, _⟩ | ⟨hFree, _⟩
            · rw [hc.holder t stage hTask hSelf] at hOther
              exact absurd (Option.some.inj hOther).symm hne
            · rw [hFree] at hOther
              cases hOther

/-- A command keeps its kind. -/
theorem Turns.isSend_eq {s s' : Session} {self fresh : Nat} {task task' : Task}
    (h : Turns s self fresh task s' task') : task'.isSend = task.isSend := by
  cases h <;> rfl

theorem map_isSend_set {tasks : List Task} {t : Nat} {task task' : Task}
    (hTask : tasks[t]? = some task) (hKind : task'.isSend = task.isSend) :
    (tasks.set t task').map Task.isSend = tasks.map Task.isSend := by
  rw [List.map_set, hKind]
  obtain ⟨hLength, hGet⟩ := List.getElem?_eq_some_iff.mp hTask
  rw [← hGet, ← List.getElem_map Task.isSend (h := by simpa using hLength), List.set_getElem_self]

/-- With the same returns of stops, a turn leaves the later sends as they were. -/
theorem hasLaterSend_turn {c : SessionConfig} {t : Nat} {task task' : Task} {s' : Session}
    (hTask : c.tasks[t]? = some task) (hKind : task'.isSend = task.isSend)
    (hSame : s'.stoppedBefore = c.shared.stoppedBefore) :
    hasLaterSend ⟨s', c.tasks.set t task'⟩ = hasLaterSend c := by
  rw [hasLaterSend, hasLaterSend, map_isSend_set hTask hKind, hSame]

theorem hasLaterSend_call {c : SessionConfig} {new : Task} (h : hasLaterSend c = true) :
    hasLaterSend ⟨c.shared, c.tasks ++ [new]⟩ = true := by
  rw [hasLaterSend, List.any_eq_true] at h ⊢
  obtain ⟨send, hMem, hSend⟩ := h
  refine ⟨send, ?_, hSend⟩
  rw [List.map_append, List.drop_append]
  exact List.mem_append_left _ hMem

/-- A step keeps a stopped share stopped exactly when it meets the condition. -/
theorem installsUnstopped_iff {c d : SessionConfig} {l : SessionLabel} (hHeld : LockHeld c)
    (hc : StaysStopped c) (hNext : step c l = some d) :
    InstallsUnstopped c l ↔ StaysStopped d := by
  cases l with
  | call command =>
      obtain rfl := Option.some.inj hNext
      refine ⟨fun _ hNone => hc ?_, fun _ => trivial⟩
      cases hLater : hasLaterSend c with
      | false => rfl
      | true => exact absurd (hasLaterSend_call hLater) (by rw [hNone]; nofun)
  | restart reset => exact nomatch reset
  | turn t answer =>
      obtain ⟨task, s', task', hTask, hTurns, rfl⟩ := step_turn hNext
      have hKind := hTurns.isSend_eq
      have hCond : InstallsUnstopped c (.turn t answer) ↔
          (task.installs = true → hasLaterSend c = true) := by
        simp [InstallsUnstopped, hTask]
      rw [hCond]
      cases hTurns with
      | worked paths stage stage' s' hSame hNot =>
          rw [StaysStopped, hasLaterSend_turn hTask hKind hSame.2.1, hSame.2.2]
          refine ⟨fun _ => hc, fun _ hInstalls => ?_⟩
          cases hLater : hasLaterSend c with
          | true => rfl
          | false =>
              have hShare := hNot hInstalls
              rw [hc hLater] at hShare
              cases hShare
      | installed paths ticket hFree hNone =>
          obtain ⟨_, hStopped, hShare⟩ := install_of_none paths ticket hNone
          rw [StaysStopped, hasLaterSend_turn hTask hKind hStopped, hShare]
          cases hasLaterSend c <;> simp [Task.installs]
      | held stage hFree hHolds =>
          exact ⟨fun _ _ => rfl, fun _ => nofun⟩
      | moved stage stage' hHolds hHolds' =>
          rw [StaysStopped, hasLaterSend_turn hTask hKind rfl]
          exact ⟨fun _ => hc, fun _ => nofun⟩
      | ended stage s' hHolds =>
          refine ⟨fun _ _ => ?_, fun _ => nofun⟩
          rcases hHolds with ⟨hSelf, rfl⟩ | ⟨_, rfl⟩
          · exact hHeld.empty (by rw [hHeld.holder t stage hTask hSelf]; nofun)
          · rfl

/-- In every run: no state that is passed has a share unless a send was called
after the last return of a stop, exactly when every share that is put in has
such a send. -/
theorem stopped_share_stays_stopped_iff {node : Bool} {steps : List SessionLabel}
    {c : SessionConfig} (hRun : exec step (launched node) steps = some c) :
    (∀ first m, first <+: steps → exec step (launched node) first = some m → StaysStopped m) ↔
      Meets step InstallsUnstopped (launched node) steps := by
  have hStep : ∀ s l t, LockHeld s ∧ StaysStopped s → step s l = some t →
      (InstallsUnstopped s l ↔ LockHeld t ∧ StaysStopped t) := by
    rintro s l t ⟨hHeld, hs⟩ hNext
    rw [installsUnstopped_iff hHeld hs hNext]
    exact (and_iff_right (lockHeld_step hHeld hNext)).symm
  rw [meets_iff_states hStep hRun ⟨lockHeld_launched node, fun _ => rfl⟩]
  constructor
  · intro hAll first m hFirst hReach
    exact ⟨exec_invariant (fun _ _ _ hs hNext => lockHeld_step hs hNext) hReach
      (lockHeld_launched node), hAll first m hFirst hReach⟩
  · intro hAll first m hFirst hReach
    exact (hAll first m hFirst hReach).2

/-- A share is started and stopped, and another one started. -/
def stoppedBetween : List SessionLabel :=
  [.call (.sendItems ["/home/a.txt"]), .turn 0 .ok, .turn 0 .ok, .turn 0 .ok,
    .turn 0 (.ticket "blob"), .turn 0 .ok, .call .stopSharing, .turn 1 .ok, .turn 1 .ok,
    .call (.sendItems ["/home/b.txt"]), .turn 1 .ok, .turn 1 .ok, .turn 2 .ok]

theorem stopped_share_stays_stopped_iff_stoppedBetween : ∃ c,
    exec step (launched true) stoppedBetween = some c ∧ StaysStopped c := by
  have hBoth : (∃ c, exec step (launched true) stoppedBetween = some c ∧ True) ∧
      Meets step InstallsUnstopped (launched true) stoppedBetween := by
    decide
  obtain ⟨⟨c, hRun, _⟩, hMeets⟩ := hBoth
  have hStates := (stopped_share_stays_stopped_iff hRun).mpr hMeets
  exact ⟨c, hRun, hStates stoppedBetween c List.prefix_rfl hRun⟩

/-- A stop that returns during the setup of a send finds nothing to stop, and
the send goes on to share. -/
theorem share_after_stop :
    ¬∀ (steps : List SessionLabel) (c : SessionConfig),
      exec step (launched false) steps = some c →
      (∀ task ∈ c.tasks, task.isReturned = true) → StaysStopped c := by
  intro h
  have hRun : ∃ c, exec step (launched false)
        [.call (.sendItems ["/home/a.txt"]), .turn 0 .ok, .call .stopSharing, .turn 1 .ok,
          .turn 0 .ok, .turn 0 .ok, .turn 0 (.ticket "blob"), .turn 0 .ok] = some c ∧
      (∀ task ∈ c.tasks, task.isReturned = true) ∧ hasLaterSend c = false ∧
      c.shared.app.currentShare ≠ none := by
    decide
  obtain ⟨c, hRun, hReturned, hLater, hShare⟩ := hRun
  exact hShare (h _ c hRun hReturned hLater)

end AltSendme.Desktop.Sharing
