import AltSendme.Execution.Pool
import AltSendme.Native.RelayChange
import AltSendme.Relay.RelaySettings

/-! The relay of the device node from the start of the application on. The
backend brings the node up before it knows the setting; the frontend sends the
setting once the node is ready, and again when the user leaves the settings. -/
namespace AltSendme
open Execution

/-- A setting under which public relays are not to be used. -/
def RelayConfigInput.Private (input : RelayConfigInput) : Prop :=
  input.relayMode = .disabled ∨ input.relayMode = .custom ∧ input.relayFallback = .strict

abbrev PrivateSetting := { input : RelayConfigInput // input.Private }

/-- What the backend and the frontend keep. `bound` has the mode of every
control endpoint that was bound, in order. -/
structure DeviceApp where
  relaySetting : PrivateSetting
  node : Option NodeService
  nodeInitError : Option String
  sharing : Bool
  isNodeReady : Bool
  didSyncRelay : Bool
  bound : List RelayMode

/-- What a start of the node meets outside. -/
structure NodeStartAnswers where
  dataDir : Bool
  identityLoaded : Bool
  allowedLoaded : Bool
  binds : Bool
  deriving DecidableEq, Repr

/-- The endpoint of the node gets as far as being bound. -/
def NodeStartAnswers.BringsUp (a : NodeStartAnswers) : Prop :=
  a.dataDir = true ∧ a.identityLoaded = true ∧ a.allowedLoaded = true ∧ a.binds = true

instance (a : NodeStartAnswers) : Decidable a.BringsUp :=
  inferInstanceAs (Decidable (_ ∧ _ ∧ _ ∧ _))

/-- `NodeService::start` -/
def NodeService.start (relayMode : RelayMode) (a : NodeStartAnswers) : Except String NodeService :=
  if !a.identityLoaded then .error "identity"
  else if !a.allowedLoaded then .error "paired devices"
  else
    let down : NodeService :=
      ⟨⟨relayMode, false⟩, relayMode, ⟨false, false, false, none⟩, false, [], 0⟩
    match down.buildRuntime relayMode a.binds with
    | none => .error "bind"
    | some (built, runtime) => .ok { built with runtime }

/-- Where a part of the application stands; `sync` marks the call of
`DeviceNodeSync`, whose failure is caught. -/
inductive AppTask where
  | initNode
  | initDone (node : NodeService)
  | initFailed (error : String)
  | refreshStatus
  | changeSetting (setting : PrivateSetting)
  | setSharing (sharing : Bool)
  | syncEffect
  | confirmLeave
  | resolving (setting : PrivateSetting) (sync : Bool)
  | lookingUp (relayMode : RelayMode) (sync : Bool)
  | comparing (relayMode : RelayMode) (sync : Bool)
  | replacing (relayMode : RelayMode) (sync : Bool)
  | caught
  | finished

inductive AppInput where
  | go
  | started (a : NodeStartAnswers)
  | probed (probe : RelayProbe)
  | replaced (a : RuntimeAnswers)

inductive AppCommand where
  | initNode
  | refreshStatus
  | changeSetting (setting : PrivateSetting)
  | setSharing (sharing : Bool)
  | sync
  | confirmLeave

namespace AppTask

/-- Where a call stands once it has failed. -/
def failed (sync : Bool) : AppTask := if sync then .caught else .finished

/-- `init_node_service` up to the lock of the state. -/
def initNodeService (fromStr : String → Option RelayUrl) (app : DeviceApp) (a : NodeStartAnswers) :
    DeviceApp × AppTask :=
  if !a.dataDir then (app, .initFailed "app data dir")
  else
    match resolveRelayModeWithFallback fromStr (fun _ => .timedOut) none with
    | .error e => (app, .initFailed e)
    | .ok (relayMode, _) =>
        match NodeService.start relayMode.into a with
        | .error e => (app, .initFailed s!"Failed to start device node: {e}")
        | .ok node => ({ app with bound := app.bound ++ [relayMode.into] }, .initDone node)

/-- `node.reconfigure_relay`, past the comparison. -/
def replaceRuntime (app : DeviceApp) (relayMode : RelayMode) (sync : Bool) (a : RuntimeAnswers) :
    DeviceApp × AppTask :=
  match app.node with
  | none => (app, failed sync)
  | some node =>
      let bound :=
        if a.shutdown = .done ∧ a.binds = true then app.bound ++ [relayMode] else app.bound
      match node.replaceRuntime relayMode a with
      | (node', .ok ()) => ({ app with node := some node', bound }, .finished)
      | (node', .error _) => ({ app with node := some node', bound }, failed sync)

/-- The next step of a part. -/
def turn (fromStr : String → Option RelayUrl) (debug : RelayMode → String) (app : DeviceApp) :
    AppTask → AppInput → Option (DeviceApp × AppTask)
  | .initNode, .started a => some (initNodeService fromStr app a)
  | .initDone node, .go => some ({ app with node := some node, nodeInitError := none }, .finished)
  | .initFailed error, .go => some ({ app with nodeInitError := some error }, .finished)
  | .refreshStatus, .go => some ({ app with isNodeReady := app.node.isSome }, .finished)
  | .changeSetting setting, .go => some ({ app with relaySetting := setting }, .finished)
  | .setSharing sharing, .go => some ({ app with sharing := sharing }, .finished)
  | .syncEffect, .go =>
      if app.isNodeReady && !app.didSyncRelay then
        some ({ app with didSyncRelay := true }, .resolving app.relaySetting true)
      else some (app, .finished)
  | .confirmLeave, .go =>
      if app.isNodeReady then some (app, .resolving app.relaySetting false)
      else some (app, .finished)
  | .resolving setting sync, .probed probe =>
      match resolveRelayModeWithFallback fromStr (fun _ => probe)
          (some (buildRelayConfigArg false setting)) with
      | .error _ => some (app, failed sync)
      | .ok (relayMode, _) => some (app, .lookingUp relayMode.into sync)
  | .lookingUp relayMode sync, .go =>
      if app.sharing then some (app, failed sync)
      else if app.node.isNone then some (app, failed sync)
      else some (app, .comparing relayMode sync)
  | .comparing relayMode sync, .go =>
      if app.node.any fun node => debug node.relayMode = debug relayMode then some (app, .finished)
      else some (app, .replacing relayMode sync)
  | .replacing relayMode sync, .replaced a => some (replaceRuntime app relayMode sync a)
  | .caught, .go => some ({ app with didSyncRelay := false }, .finished)
  | _, _ => none

def start : AppCommand → AppTask
  | .initNode => .initNode
  | .refreshStatus => .refreshStatus
  | .changeSetting setting => .changeSetting setting
  | .setSharing sharing => .setSharing sharing
  | .sync => .syncEffect
  | .confirmLeave => .confirmLeave

/-- The mode a call is on its way to bind. -/
def relayMode : AppTask → Option RelayMode
  | .lookingUp relayMode _ | .comparing relayMode _ | .replacing relayMode _ => some relayMode
  | _ => none

end AppTask

/-- The application as a pool of its parts. -/
def deviceApp (fromStr : String → Option RelayUrl) (debug : RelayMode → String) :
    Pool DeviceApp AppTask AppInput AppCommand Empty where
  turn app _ _ task input :=
    (task.turn fromStr debug app input).map fun (app', task') => (app', task', [])
  start := AppTask.start
  restart := nofun

abbrev AppLabel := Pool.Label AppInput AppCommand Empty

abbrev appStep (fromStr : String → Option RelayUrl) (debug : RelayMode → String) :=
  (deviceApp fromStr debug).next

/-- The application at its start, with the setting that was persisted. -/
def appStarted (setting : PrivateSetting) : Pool.Config DeviceApp AppTask :=
  ⟨⟨setting, none, none, false, false, false, []⟩, []⟩

/-- No start of the node gets as far as binding an endpoint. -/
def NodeStaysDown (c : Pool.Config DeviceApp AppTask) : AppLabel → Prop
  | .turn t (.started a) =>
      match c.tasks[t]? with
      | some .initNode => ¬a.BringsUp
      | _ => True
  | _ => True

instance (c : Pool.Config DeviceApp AppTask) : (l : AppLabel) → Decidable (NodeStaysDown c l)
  | .call _ => .isTrue trivial
  | .restart reset => nomatch reset
  | .turn _ input => by
      unfold NodeStaysDown
      cases input <;> dsimp only
      case started a => split <;> infer_instance
      all_goals exact .isTrue trivial

section
variable {fromStr : String → Option RelayUrl} {debug : RelayMode → String}

/-- Only Default becomes the default relays. -/
theorem RelayModeOption.into_ne_default {relayMode : RelayModeOption} (h : relayMode ≠ .default) :
    relayMode.into ≠ .default := by
  cases relayMode with
  | disabled => nofun
  | default => exact absurd rfl h
  | custom urls authToken => nofun

/-- A setting that excludes public relays never resolves to them. -/
theorem PrivateSetting.resolved_ne_default {setting : PrivateSetting}
    {probe : RelayModeOption → RelayProbe} {relayMode : RelayModeOption} {fellBack : Bool}
    (h : resolveRelayModeWithFallback fromStr probe (some (buildRelayConfigArg false setting)) =
      .ok (relayMode, fellBack)) : relayMode ≠ .default := by
  obtain ⟨⟨choice, urls, token, fallback⟩, hPrivate⟩ := setting
  rintro rfl
  rcases hPrivate with hDisabled | ⟨hCustom, hStrict⟩
  · obtain rfl : choice = .disabled := hDisabled
    rcases resolveRelayModeWithFallback_ok h with ⟨hBuilt, -⟩ | ⟨_, _, hBuilt, -⟩ <;> cases hBuilt
  · obtain rfl : choice = .custom := hCustom
    obtain rfl : fallback = .strict := hStrict
    rcases resolveRelayModeWithFallback_ok h with ⟨hBuilt, -⟩ | ⟨_, _, -, hPolicy, -⟩
    · obtain ⟨_, _, hMode, -⟩ := buildRelayMode_of_custom rfl hBuilt
      cases hMode
    · cases hPolicy

/-- The backend brings the node up with public relays, whatever the setting. -/
theorem initNodeService_bound {app app' : DeviceApp} {a : NodeStartAnswers} {task' : AppTask}
    (h : AppTask.initNodeService fromStr app a = (app', task')) :
    task'.relayMode = none ∧
      app'.bound = if a.BringsUp then app.bound ++ [.default] else app.bound := by
  obtain ⟨dataDir, identityLoaded, allowedLoaded, binds⟩ := a
  cases dataDir <;> cases identityLoaded <;> cases allowedLoaded <;> cases binds <;> cases h <;>
    exact ⟨rfl, rfl⟩

/-- Replacing the node binds the relays it was asked for, or nothing. -/
theorem replaceRuntime_bound {app app' : DeviceApp} {relayMode : RelayMode} {sync : Bool}
    {a : RuntimeAnswers} {task' : AppTask}
    (h : AppTask.replaceRuntime app relayMode sync a = (app', task')) :
    task'.relayMode = none ∧ (app'.bound = app.bound ∨ app'.bound = app.bound ++ [relayMode]) := by
  have hFailed : (AppTask.failed sync).relayMode = none := by cases sync <;> rfl
  rw [AppTask.replaceRuntime] at h
  cases hNode : app.node with
  | none =>
      rw [hNode] at h
      cases h
      exact ⟨hFailed, .inl rfl⟩
  | some node =>
      rw [hNode] at h
      dsimp only at h
      split at h <;> cases h
      · refine ⟨rfl, ?_⟩
        dsimp only
        split
        · exact .inr rfl
        · exact .inl rfl
      · refine ⟨hFailed, ?_⟩
        dsimp only
        split
        · exact .inr rfl
        · exact .inl rfl

/-- The step is one of `init_node_service` that brings the node up. -/
def AppTask.bringsUp : AppTask → AppInput → Bool
  | .initNode, .started a => decide a.BringsUp
  | _, _ => false

/-- What one step of a part does to the endpoints that were bound: public relays are
bound by a start, and by nothing else. -/
theorem AppTask.turn_bound {app app' : DeviceApp} {task task' : AppTask} {input : AppInput}
    (h : task.turn fromStr debug app input = some (app', task'))
    (hMode : task.relayMode ≠ some .default) :
    task'.relayMode ≠ some .default ∧ app'.bound.count .default =
      app.bound.count .default + if task.bringsUp input then 1 else 0 := by
  have hFailed (sync : Bool) : (AppTask.failed sync).relayMode ≠ some .default := by
    cases sync <;> nofun
  cases task <;> cases input <;> simp only [AppTask.turn, reduceCtorEq] at h
  case initNode.started a =>
    obtain ⟨hNone, hBound⟩ := initNodeService_bound (Option.some.inj h)
    refine ⟨by rw [hNone]; nofun, ?_⟩
    rw [hBound, AppTask.bringsUp]
    split
    · next hUp => simp [hUp]
    · next hDown => simp [hDown]
  case replacing.replaced relayMode sync a =>
    obtain ⟨hNone, hBound⟩ := replaceRuntime_bound (Option.some.inj h)
    refine ⟨by rw [hNone]; nofun, ?_⟩
    have hOther : relayMode ≠ RelayMode.default := fun hSame => hMode (by rw [hSame]; rfl)
    rcases hBound with hBound | hBound <;> simp [hBound, hOther, AppTask.bringsUp]
  case resolving.probed setting sync probe =>
    split at h
    · cases h
      exact ⟨hFailed sync, rfl⟩
    · next relayMode fellBack hResolved =>
      cases h
      have hPrivate := RelayModeOption.into_ne_default (setting.resolved_ne_default hResolved)
      exact ⟨fun hSame => hPrivate (Option.some.inj hSame), rfl⟩
  case lookingUp.go relayMode sync =>
    split at h
    · cases h
      exact ⟨hFailed sync, rfl⟩
    · split at h <;> cases h
      · exact ⟨hFailed sync, rfl⟩
      · exact ⟨hMode, rfl⟩
  case comparing.go relayMode sync =>
    split at h <;> cases h
    · exact ⟨nofun, rfl⟩
    · exact ⟨hMode, rfl⟩
  case syncEffect.go =>
    split at h <;> cases h
    · exact ⟨nofun, rfl⟩
    · exact ⟨nofun, rfl⟩
  case confirmLeave.go =>
    split at h <;> cases h
    · exact ⟨nofun, rfl⟩
    · exact ⟨nofun, rfl⟩
  all_goals
    cases h
    exact ⟨nofun, rfl⟩

/-- No call on its way binds public relays. -/
def NonePublic (c : Pool.Config DeviceApp AppTask) : Prop :=
  ∀ task ∈ c.tasks, task.relayMode ≠ some .default

/-- One step binds the default relays exactly if it brings the node up. -/
theorem default_bound_step {c d : Pool.Config DeviceApp AppTask} {l : AppLabel}
    (h : NonePublic c) (hStep : appStep fromStr debug c l = some d) :
    NonePublic d ∧ d.shared.bound.count .default =
      c.shared.bound.count .default + if NodeStaysDown c l then 0 else 1 := by
  cases l with
  | call command =>
      obtain rfl := Option.some.inj hStep
      refine ⟨?_, by simp [NodeStaysDown]⟩
      intro task hTask
      rcases List.mem_append.mp hTask with hOld | hNew
      · exact h task hOld
      · rw [List.mem_singleton.mp hNew]
        cases command <;> nofun
  | restart reset => exact nomatch reset
  | turn t input =>
      obtain ⟨task, shared, task', spawned, hTask, hTurn, rfl⟩ :=
        (deviceApp fromStr debug).next_turn_eq_some.mp hStep
      obtain ⟨⟨app', moved⟩, hMoved, hEq⟩ := Option.map_eq_some_iff.mp hTurn
      obtain ⟨rfl, rfl, rfl⟩ : app' = shared ∧ moved = task' ∧ [] = spawned := by
        simpa using hEq
      obtain ⟨hMode, hBound⟩ := AppTask.turn_bound hMoved (h task (List.mem_of_getElem? hTask))
      have hDown : NodeStaysDown c (.turn t input) ↔ ¬task.bringsUp input = true := by
        cases input with
        | started a =>
            simp only [NodeStaysDown, hTask]
            cases task <;> simp [AppTask.bringsUp]
        | _ => simp [NodeStaysDown, AppTask.bringsUp]
      refine ⟨?_, ?_⟩
      · intro other hOther
        rw [List.append_nil] at hOther
        rcases List.mem_or_eq_of_mem_set hOther with hOld | rfl
        · exact h other hOld
        · exact hMode
      · rw [hBound]
        by_cases hUp : task.bringsUp input = true
        · rw [if_pos hUp, if_neg (fun h => hDown.mp h hUp)]
        · rw [if_neg hUp, if_pos (hDown.mpr hUp)]

/-- Under a setting that excludes public relays, the control endpoint is never
bound with them exactly when no start of the node gets to bind it. Each such start binds
them once, and no sync and no change of the setting ever does. -/
theorem device_node_avoids_public_relays_iff (setting : PrivateSetting)
    {c : Pool.Config DeviceApp AppTask} {ls : List AppLabel}
    (hRun : exec (appStep fromStr debug) (appStarted setting) ls = some c) :
    (.default ∉ c.shared.bound ↔
      Meets (appStep fromStr debug) NodeStaysDown (appStarted setting) ls) ∧
    c.shared.bound.count .default =
      breaches (appStep fromStr debug) NodeStaysDown (appStarted setting) ls := by
  have hNone : NonePublic (appStarted setting) := nofun
  have hCount := measure_eq_breaches
    (fun _ _ _ hPublic hStep => default_bound_step hPublic hStep) hNone hRun
  have hStarted : (appStarted setting).shared.bound.count .default = 0 := rfl
  rw [hStarted, Nat.zero_add] at hCount
  refine ⟨?_, hCount⟩
  rw [← breaches_eq_zero hRun, ← hCount, List.count_eq_zero]

end

section
private def disabledSetting : PrivateSetting := ⟨⟨.disabled, [], "", .strict⟩, .inl rfl⟩

private def printMode : RelayMode → String
  | .disabled => "Disabled"
  | .default => "Default"
  | .custom _ _ => "Custom"

/-- The first start of the application, whose endpoint does not bind. -/
private def neverUp : List AppLabel :=
  [.call .initNode, .turn 0 (.started ⟨true, true, true, false⟩), .turn 0 .go]

/-- A start as it should be, the sync of the setting included. -/
private def upAndSynced : List AppLabel :=
  [.call .initNode, .turn 0 (.started ⟨true, true, true, true⟩), .turn 0 .go,
    .call .refreshStatus, .turn 1 .go, .call .sync, .turn 2 .go, .turn 2 (.probed .timedOut),
    .turn 2 .go, .turn 2 .go, .turn 2 (.replaced ⟨.done, true⟩)]

theorem device_node_avoids_public_relays_iff_neverUp : ∃ c,
    exec (appStep (fun _ => none) printMode) (appStarted disabledSetting) neverUp = some c ∧
      .default ∉ c.shared.bound ∧ c.shared.bound.count .default = 0 := by
  obtain ⟨c, hRun⟩ : ∃ c, exec (appStep (fun _ => none) printMode) (appStarted disabledSetting)
      neverUp = some c := ⟨_, rfl⟩
  have hDown : Meets (appStep (fun _ => none) printMode) NodeStaysDown
      (appStarted disabledSetting) neverUp := by decide
  obtain ⟨hAvoids, hCount⟩ := device_node_avoids_public_relays_iff disabledSetting hRun
  exact ⟨c, hRun, hAvoids.mpr hDown, hCount.trans ((breaches_eq_zero hRun).mpr hDown)⟩

/-- With relays disabled the node comes up on public ones and is moved off them later. -/
theorem node_starts_on_public_relays : ∃ c,
    exec (appStep (fun _ => none) printMode) (appStarted disabledSetting) upAndSynced = some c ∧
      c.shared.bound = [.default, .disabled] := by
  decide

end

end AltSendme
