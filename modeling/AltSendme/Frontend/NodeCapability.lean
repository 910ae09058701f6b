import AltSendme.Execution.Run
import AltSendme.Frontend.Transfer

/-! The node status the interface shows (`node-capability-store.ts`), fed by polls of
`get_node_status` and by the node's lifecycle events. Events are delivered in the order
they were emitted, at any later time; a poll reads the backend at some moment between
its call and its answer. `get_node_status` never fails, so the branch for its failure
is left out. -/
namespace AltSendme.Frontend
open Execution

inductive NodeStatusKind where
  | ready
  | starting
  | unavailable
  deriving DecidableEq, Repr

structure NodeStatus where
  status : NodeStatusKind
  reason : Option String
  networkReady : Option Bool
  deriving DecidableEq, Repr

/-- What of the application state `get_node_status` reads. The network flag belongs to
the node's task, which may set it before the node is published. -/
structure NodeBackend where
  node : Bool
  nodeInitError : Option String
  networkReady : Bool
  deriving DecidableEq, Repr

def nodeStatusFromState (guard : NodeBackend) : NodeStatus :=
  if guard.node then ⟨.ready, none, some guard.networkReady⟩
  else
    match guard.nodeInitError with
    | none => ⟨.starting, none, some false⟩
    | some error => ⟨.unavailable, some error, some false⟩

/-- The events `device-node-ready`, `-network-ready`, `-network-warming` and `-failed`. -/
inductive LifecycleEvent where
  | ready
  | networkReady
  | networkWarming
  | failed (payload : String)
  deriving DecidableEq, Repr

/-- How far the poll in flight has got. -/
inductive Poll where
  | idle
  | asked
  | read (nodeStatus : NodeStatus)
  deriving DecidableEq, Repr

/-- The store and the variables of its module. -/
structure NodeCapability where
  nodeStatus : NodeStatus
  hasResolved : Bool
  isNetworkReady : Bool
  refreshInFlight : Poll
  fallbackTimer : Bool
  waitStartedAt : Option Int
  deriving DecidableEq, Repr

def waitMaxMs : Int := 30000

/-- Ready, or unavailable with a reason that is not empty. -/
def isNodeStatusSettled (nodeStatus : NodeStatus) : Bool :=
  match nodeStatus.status with
  | .ready => true
  | .starting => false
  | .unavailable => nodeStatus.reason.any (· != "")

namespace NodeCapability

def clearFallback (s : NodeCapability) : NodeCapability :=
  { s with fallbackTimer := false, waitStartedAt := none }

/-- A call while a poll is in flight joins it. -/
def refresh (s : NodeCapability) : NodeCapability :=
  if s.refreshInFlight = .idle then { s with refreshInFlight := .asked } else s

/-- What `refresh` does with the answer. It is one turn, whose two readings of the clock
are taken as one. -/
def answer (s : NodeCapability) (nodeStatus : NodeStatus) (now : Int) : NodeCapability :=
  let s := { s with refreshInFlight := .idle }
  if isNodeStatusSettled nodeStatus then
    { s.clearFallback with
      nodeStatus := nodeStatus
      hasResolved := true
      isNetworkReady := nodeStatus.status = .ready && nodeStatus.networkReady.getD false }
  else
    let started := s.waitStartedAt.getD now
    if now - started ≥ waitMaxMs then
      let reason := nodeStatus.reason.getD "Device node failed to start in time."
      { s.clearFallback with
        nodeStatus := ⟨.unavailable, some reason, none⟩
        hasResolved := true
        isNetworkReady := false }
    else
      { s with
        nodeStatus := ⟨.starting, nodeStatus.reason, none⟩
        hasResolved := false
        isNetworkReady := false
        waitStartedAt := some started
        fallbackTimer := true }

/-- The four listeners of `ensureNodeCapabilityLifecycle`. -/
def receive (s : NodeCapability) : LifecycleEvent → NodeCapability
  | .ready => s.clearFallback.refresh
  | .networkReady => { s with isNetworkReady := true }.refresh
  | .networkWarming => { s with isNetworkReady := false }
  | .failed payload =>
      let reason := if trim payload = "" then "Failed to initialize device node" else payload
      { s.clearFallback with
        nodeStatus := ⟨.unavailable, some reason, none⟩
        hasResolved := true
        isNetworkReady := false }

/-- The store after the first component that shows the status has asked for it. -/
def mounted : NodeCapability :=
  { nodeStatus := ⟨.starting, none, none⟩, hasResolved := false, isNetworkReady := false
    refreshInFlight := .asked, fallbackTimer := false, waitStartedAt := none }

end NodeCapability

/-- The backend, its events on their way, and the store. -/
structure NodeView where
  backend : NodeBackend
  events : List LifecycleEvent
  store : NodeCapability
  deriving DecidableEq, Repr

inductive NodeLabel where
  | nodeStarted
  | nodeFailed (error : String)
  | networkReady
  | networkWarming
  | refresh
  | read
  | answer (now : Int)
  | deliver
  | fallback
  deriving DecidableEq, Repr

namespace NodeView

def start (backend : NodeBackend) : NodeView := ⟨backend, [], .mounted⟩

/-- A change of the backend and its event are one step, since the event may wait. -/
def next (s : NodeView) : NodeLabel → Option NodeView
  | .nodeStarted =>
      if s.backend.node = false ∧ s.backend.nodeInitError = none then
        some { s with
          backend := { s.backend with node := true }
          events := s.events ++ [.ready] }
      else none
  | .nodeFailed error =>
      if s.backend.node = false ∧ s.backend.nodeInitError = none then
        some { s with
          backend := { s.backend with nodeInitError := some error }
          events := s.events ++ [.failed error] }
      else none
  | .networkReady =>
      some { s with
        backend := { s.backend with networkReady := true }
        events := s.events ++ [.networkReady] }
  | .networkWarming =>
      if s.backend.node = true then
        some { s with
          backend := { s.backend with networkReady := false }
          events := s.events ++ [.networkWarming] }
      else none
  | .refresh => some { s with store := s.store.refresh }
  | .read =>
      if s.store.refreshInFlight = .asked then
        some { s with
          store := { s.store with refreshInFlight := .read (nodeStatusFromState s.backend) } }
      else none
  | .answer now =>
      match s.store.refreshInFlight with
      | .read nodeStatus => some { s with store := s.store.answer nodeStatus now }
      | _ => none
  | .deliver =>
      match s.events with
      | [] => none
      | event :: rest => some { s with events := rest, store := s.store.receive event }
  | .fallback =>
      if s.store.fallbackTimer = true then
        some { s with store := { s.store with fallbackTimer := false }.refresh }
      else none

/-- No poll in flight, no timer, every event delivered. -/
def Quiescent (s : NodeView) : Prop :=
  s.store.refreshInFlight = .idle ∧ s.store.fallbackTimer = false ∧ s.events = []

/-- The node has started or has failed to. -/
def Settled (s : NodeView) : Prop := (nodeStatusFromState s.backend).status ≠ .starting

/-- The specification: at rest the interface shows what the backend would answer. -/
def Converged (s : NodeView) : Prop :=
  s.Quiescent → s.Settled →
    s.store.nodeStatus.status = (nodeStatusFromState s.backend).status ∧
      some s.store.isNetworkReady = (nodeStatusFromState s.backend).networkReady

/-- An answer that says ready is handled while its network flag is still the backend's,
or while an event is still on its way. -/
def AnswerCurrent (s : NodeView) : NodeLabel → Prop
  | .answer _ => ∀ nodeStatus, s.store.refreshInFlight = .read nodeStatus →
      nodeStatus.status = .ready →
        nodeStatus.networkReady = some s.backend.networkReady ∨ s.events ≠ []
  | _ => True

instance decidableAnswerCurrent (s : NodeView) : ∀ label, Decidable (s.AnswerCurrent label)
  | .answer _ =>
      match h : s.store.refreshInFlight with
      | .read a =>
          decidable_of_iff (a.status = .ready →
            a.networkReady = some s.backend.networkReady ∨ s.events ≠ []) (by
              simp [AnswerCurrent, h])
      | .idle | .asked => .isTrue (by simp [AnswerCurrent, h])
  | .nodeStarted | .nodeFailed _ | .networkReady | .networkWarming | .refresh | .read
  | .deliver | .fallback => .isTrue trivial

end NodeView

/-- The network flag an event stands for. -/
def LifecycleEvent.flag : LifecycleEvent → Option Bool
  | .networkReady => some true
  | .networkWarming => some false
  | _ => none

/-- The flag of the last network event on its way. -/
def lastFlag (events : List LifecycleEvent) : Option Bool :=
  (events.filterMap LifecycleEvent.flag).getLast?

section Events
variable {event : LifecycleEvent} {events : List LifecycleEvent}

/-- The newest event decides, where it says anything. -/
theorem lastFlag_concat : lastFlag (events ++ [event]) = event.flag.or (lastFlag events) := by
  cases hFlag : event.flag with
  | none => simp [lastFlag, hFlag]
  | some v => simp [lastFlag, hFlag]

/-- The oldest event decides only where no later one says anything. -/
theorem lastFlag_cons : lastFlag (event :: events) = (lastFlag events).or event.flag := by
  cases hFlag : event.flag with
  | none => simp [lastFlag, hFlag]
  | some v => simp [lastFlag, hFlag, List.getLast?_cons]

/-- A network event on its way leaves a flag behind. -/
theorem lastFlag_ne_none (hMem : event ∈ events) (hFlag : event.flag ≠ none) :
    lastFlag events ≠ none := by
  induction events with
  | nil => exact absurd hMem List.not_mem_nil
  | cons e rest ih =>
      rw [lastFlag_cons]
      rcases List.mem_cons.mp hMem with rfl | hRest
      · cases hLast : lastFlag rest with
        | none => simpa using hFlag
        | some v => simp
      · cases hLast : lastFlag rest with
        | none => exact absurd hLast (ih hRest)
        | some v => simp

end Events

/-- What the events on their way say about the backend. -/
structure Announced (backend : NodeBackend) (events : List LifecycleEvent) : Prop where
  flag : ∀ v, lastFlag events = some v → backend.networkReady = v
  started : .ready ∈ events → backend.node = true
  failed : ∀ payload, .failed payload ∈ events →
    backend.node = false ∧ backend.nodeInitError ≠ none

namespace Announced
variable {backend : NodeBackend} {event : LifecycleEvent} {events : List LifecycleEvent}

/-- The first event may be delivered without changing what was announced last. -/
theorem tail (h : Announced backend (event :: events)) : Announced backend events where
  flag v hLast := h.flag v (by rw [lastFlag_cons, hLast]; rfl)
  started hMem := h.started (List.mem_cons_of_mem _ hMem)
  failed payload hMem := h.failed payload (List.mem_cons_of_mem _ hMem)

/-- The flag of the event delivered stands when no other is on its way. -/
theorem flag_head (h : Announced backend (event :: events)) {v : Bool}
    (hFlag : event.flag = some v) (hLast : lastFlag events = none) :
    backend.networkReady = v :=
  h.flag v (by rw [lastFlag_cons, hLast, hFlag]; rfl)

/-- A start of the node announces itself. -/
theorem nodeStarted (h : Announced backend events) (hError : backend.nodeInitError = none) :
    Announced { backend with node := true } (events ++ [.ready]) where
  flag v hLast := h.flag v (by rwa [lastFlag_concat] at hLast)
  started _ := rfl
  failed payload hMem := by
    rcases List.mem_append.mp hMem with hOld | hNew
    · exact absurd hError (h.failed payload hOld).2
    · simp at hNew

/-- A failed start of the node announces its error. -/
theorem nodeFailed (h : Announced backend events) (hNode : backend.node = false)
    (error : String) :
    Announced { backend with nodeInitError := some error } (events ++ [.failed error]) where
  flag v hLast := h.flag v (by rwa [lastFlag_concat] at hLast)
  started hMem := by
    rcases List.mem_append.mp hMem with hOld | hNew
    · exact h.started hOld
    · simp at hNew
  failed _ _ := ⟨hNode, Option.some_ne_none error⟩

/-- A change of the network announces itself. -/
theorem network (h : Announced backend events) {v : Bool} (hFlag : event.flag = some v) :
    Announced { backend with networkReady := v } (events ++ [event]) where
  flag w hLast := by
    rw [lastFlag_concat, hFlag] at hLast
    exact Option.some.inj hLast
  started hMem := by
    rcases List.mem_append.mp hMem with hOld | hNew
    · exact h.started hOld
    · obtain rfl := List.mem_singleton.mp hNew
      cases hFlag
  failed payload hMem := by
    rcases List.mem_append.mp hMem with hOld | hNew
    · exact h.failed payload hOld
    · obtain rfl := List.mem_singleton.mp hNew
      cases hFlag

end Announced

/-- The answers a poll may carry: the node may have settled since it was read. -/
inductive ReadFrom (backend : NodeBackend) : NodeStatus → Prop where
  | starting : ReadFrom backend ⟨.starting, none, some false⟩
  | ready (v : Bool) (hNode : backend.node = true) :
      ReadFrom backend ⟨.ready, none, some v⟩
  | failed (error : String) (hNode : backend.node = false)
      (hError : backend.nodeInitError = some error) :
      ReadFrom backend ⟨.unavailable, some error, some false⟩

/-- An answer read now is read from what is there now. -/
theorem readFrom_now (backend : NodeBackend) :
    ReadFrom backend (nodeStatusFromState backend) := by
  unfold nodeStatusFromState
  cases hNode : backend.node with
  | true => exact .ready _ hNode
  | false =>
      cases hError : backend.nodeInitError with
      | none => exact .starting
      | some error => exact .failed error hNode hError

namespace NodeCapability
variable {s : NodeCapability}

/-- A poll or the timer will ask the backend again. -/
def WillAsk (s : NodeCapability) : Prop := s.refreshInFlight ≠ .idle ∨ s.fallbackTimer = true

/-- A refresh leaves a poll in flight. -/
theorem refreshInFlight_refresh (s : NodeCapability) : s.refresh.refreshInFlight ≠ .idle := by
  unfold refresh
  split
  · simp
  · assumption

/-- Joining a poll in flight changes nothing. -/
theorem refreshInFlight_of_read {a : NodeStatus} (h : s.refresh.refreshInFlight = .read a) :
    s.refreshInFlight = .read a ∧ s.refresh = s := by
  unfold refresh at h ⊢
  split at h
  · cases h
  · next hBusy => exact ⟨h, if_neg hBusy⟩

/-- An answer ends the poll. -/
theorem answer_idle (s : NodeCapability) (a : NodeStatus) (now : Int) :
    (s.answer a now).refreshInFlight = .idle := by
  unfold answer
  dsimp only
  split
  · rfl
  · split <;> rfl

/-- An answer that the node is ready settles everything the view shows. -/
theorem answer_ready (s : NodeCapability) (v : Bool) (now : Int) :
    s.answer ⟨.ready, none, some v⟩ now =
      ⟨⟨.ready, none, some v⟩, true, v, .idle, false, none⟩ := by
  simp [answer, isNodeStatusSettled, clearFallback]

/-- An answer that does not settle arms the timer, unless it ends the wait. -/
theorem answer_unsettled {a : NodeStatus} (h : isNodeStatusSettled a = false) (now : Int) :
    (s.answer a now).fallbackTimer = true ∨
      (s.waitStartedAt ≠ none ∧ (s.answer a now).nodeStatus.status = .unavailable ∧
        (s.answer a now).isNetworkReady = false) := by
  by_cases hLate : now - s.waitStartedAt.getD now ≥ waitMaxMs
  · refine Or.inr ⟨fun hNone => ?_, ?_, ?_⟩
    · rw [hNone, Option.getD_none, Int.sub_self] at hLate
      exact absurd hLate (by decide)
    · simp [answer, h, hLate]
    · simp [answer, h, hLate]
  · exact Or.inl (by simp [answer, h, hLate])

/-- A failure that is answered shows as one, at once or after the wait. -/
theorem answer_failed (error : String) (now : Int) :
    (s.answer ⟨.unavailable, some error, some false⟩ now).fallbackTimer = true ∨
      ((s.answer ⟨.unavailable, some error, some false⟩ now).nodeStatus.status = .unavailable ∧
        (s.answer ⟨.unavailable, some error, some false⟩ now).isNetworkReady = false) := by
  cases hSettled : isNodeStatusSettled ⟨.unavailable, some error, some false⟩ with
  | true => exact Or.inr (by simp [answer, hSettled])
  | false =>
      rcases answer_unsettled hSettled now with hTimer | ⟨-, hShown⟩
      · exact Or.inl hTimer
      · exact Or.inr hShown

end NodeCapability

namespace NodeView
open NodeCapability

/-- What is kept between the backend, its events and the store. Once the node has
settled, the event that says so, a poll or the timer is still to come, or the store
shows it; the flag shown may wait for a network event. -/
structure Tracked (s : NodeView) : Prop where
  announced : Announced s.backend s.events
  readFrom : ∀ a, s.store.refreshInFlight = .read a → ReadFrom s.backend a
  /-- A late answer that the node is starting begins a wait of its own. -/
  wait : ∀ a, s.store.refreshInFlight = .read a → a.status = .starting →
    s.backend.node = true → .ready ∉ s.events → s.store.waitStartedAt = none
  ready : s.backend.node = true → .ready ∈ s.events ∨ s.store.WillAsk ∨
    (s.store.nodeStatus.status = .ready ∧
      (lastFlag s.events = none → s.store.isNetworkReady = s.backend.networkReady))
  failed : s.backend.node = false → s.backend.nodeInitError ≠ none →
    (∃ payload, .failed payload ∈ s.events) ∨ s.store.WillAsk ∨
    (s.store.nodeStatus.status = .unavailable ∧ s.store.isNetworkReady = false)

/-- A view that has just been opened tracks the backend. -/
theorem Tracked.start (backend : NodeBackend) : (start backend).Tracked where
  announced := by
    constructor
    case flag => exact fun v hLast => nomatch hLast
    case started => exact fun hMem => absurd hMem List.not_mem_nil
    case failed => exact fun payload hMem => absurd hMem List.not_mem_nil
  readFrom a hRead := nomatch hRead
  wait a hRead := nomatch hRead
  ready _ := Or.inr (Or.inl (Or.inl (nomatch ·)))
  failed _ _ := Or.inr (Or.inl (Or.inl (nomatch ·)))

/-- With nothing to come the store shows the node as it is. -/
theorem Tracked.converged {s : NodeView} (h : s.Tracked) : s.Converged := by
  rintro ⟨hIdle, hTimer, hEvents⟩ hSettled
  have hQuiet : ¬s.store.WillAsk := by
    rintro (hBusy | hArmed)
    · exact hBusy hIdle
    · rw [hTimer] at hArmed
      cases hArmed
  cases hNode : s.backend.node with
  | true =>
      rcases h.ready hNode with hMem | hAsk | ⟨hStatus, hFlag⟩
      · rw [hEvents] at hMem
        exact absurd hMem List.not_mem_nil
      · exact absurd hAsk hQuiet
      · rw [hEvents] at hFlag
        simp [nodeStatusFromState, hNode, hStatus, hFlag rfl]
  | false =>
      cases hError : s.backend.nodeInitError with
      | none => simp [Settled, nodeStatusFromState, hNode, hError] at hSettled
      | some error =>
          rcases h.failed hNode (by simp [hError]) with ⟨payload, hMem⟩ | hAsk | ⟨hStatus, hFlag⟩
          · rw [hEvents] at hMem
            exact absurd hMem List.not_mem_nil
          · exact absurd hAsk hQuiet
          · simp [nodeStatusFromState, hNode, hError, hStatus, hFlag]

section Steps
variable {s : NodeView}

/-- A step that leaves a poll in flight and events as they were. -/
theorem Tracked.asking (h : s.Tracked) {store : NodeCapability} {events : List LifecycleEvent}
    (hAnnounced : Announced s.backend events) (hBusy : store.refreshInFlight ≠ .idle)
    (hRead : ∀ a, store.refreshInFlight = .read a → s.store.refreshInFlight = .read a)
    (hWait : ∀ a, store.refreshInFlight = .read a → store.waitStartedAt = none ∨
      (store.waitStartedAt = s.store.waitStartedAt ∧ (.ready ∈ s.events → .ready ∈ events))) :
    ({ s with events := events, store := store } : NodeView).Tracked where
  announced := hAnnounced
  readFrom a ha := h.readFrom a (hRead a ha)
  wait a ha hStarting hNode hGone := by
    rcases hWait a ha with hNone | ⟨hSame, hKept⟩
    · exact hNone
    · exact hSame.trans (h.wait a (hRead a ha) hStarting hNode fun hMem => hGone (hKept hMem))
  ready _ := Or.inr (Or.inl (Or.inl hBusy))
  failed _ _ := Or.inr (Or.inl (Or.inl hBusy))

/-- A refresh keeps the view tracking. -/
theorem Tracked.refresh (h : s.Tracked) :
    ({ s with store := s.store.refresh } : NodeView).Tracked :=
  h.asking h.announced (refreshInFlight_refresh s.store)
    (fun _ ha => (refreshInFlight_of_read ha).1)
    (fun _ ha => Or.inr ⟨by rw [(refreshInFlight_of_read ha).2], id⟩)

/-- The fallback timer's refresh keeps the view tracking. -/
theorem Tracked.fallback (h : s.Tracked) :
    ({ s with store := { s.store with fallbackTimer := false }.refresh } : NodeView).Tracked :=
  h.asking h.announced (refreshInFlight_refresh _)
    (fun _ ha => (refreshInFlight_of_read ha).1)
    (fun _ ha => Or.inr ⟨by rw [(refreshInFlight_of_read ha).2], id⟩)

/-- The poll reads the backend as it is now. -/
theorem Tracked.read (h : s.Tracked) : ({ s with
    store := { s.store with refreshInFlight := .read (nodeStatusFromState s.backend) } } :
    NodeView).Tracked where
  announced := h.announced
  readFrom a ha := by
    obtain rfl := Poll.read.inj ha
    exact readFrom_now s.backend
  wait a ha hStarting hNode _ := by
    obtain rfl := Poll.read.inj ha
    rw [nodeStatusFromState, if_pos hNode] at hStarting
    cases hStarting
  ready _ := Or.inr (Or.inl (Or.inl (by simp)))
  failed _ _ := Or.inr (Or.inl (Or.inl (by simp)))

/-- A start of the node is announced, so the view keeps tracking. -/
theorem Tracked.nodeStarted (h : s.Tracked)
    (hError : s.backend.nodeInitError = none) :
    ({ s with
      backend := { s.backend with node := true }
      events := s.events ++ [.ready] } : NodeView).Tracked where
  announced := h.announced.nodeStarted hError
  readFrom a ha := by
    cases h.readFrom a ha with
    | starting => exact .starting
    | ready v _ => exact .ready v rfl
    | failed error _ hSome => rw [hError] at hSome; cases hSome
  wait _ _ _ _ hGone := absurd (List.mem_append_right _ List.mem_cons_self) hGone
  ready _ := Or.inl (List.mem_append_right _ List.mem_cons_self)
  failed hStill := nomatch hStill

/-- A failed start is announced, so the view keeps tracking. -/
theorem Tracked.nodeFailed (h : s.Tracked) (hNode : s.backend.node = false)
    (hError : s.backend.nodeInitError = none) (error : String) :
    ({ s with
      backend := { s.backend with nodeInitError := some error }
      events := s.events ++ [.failed error] } : NodeView).Tracked where
  announced := h.announced.nodeFailed hNode error
  readFrom a ha := by
    cases h.readFrom a ha with
    | starting => exact .starting
    | ready v hReady => rw [hNode] at hReady; cases hReady
    | failed other _ hSome => rw [hError] at hSome; cases hSome
  wait _ _ _ hReady := absurd hReady (by simp [hNode])
  ready hReady := absurd hReady (by simp [hNode])
  failed _ _ := Or.inl ⟨error, List.mem_append_right _ List.mem_cons_self⟩

/-- A change of the network flag leaves its event behind. -/
theorem Tracked.network (h : s.Tracked) {event : LifecycleEvent} {v : Bool}
    (hFlag : event.flag = some v) :
    ({ s with
      backend := { s.backend with networkReady := v }
      events := s.events ++ [event] } : NodeView).Tracked where
  announced := h.announced.network hFlag
  readFrom a ha := by
    cases h.readFrom a ha with
    | starting => exact .starting
    | ready w hNode => exact .ready w hNode
    | failed error hNode hError => exact .failed error hNode hError
  wait a ha hStarting hNode hGone :=
    h.wait a ha hStarting hNode fun hMem => hGone (List.mem_append_left _ hMem)
  ready hNode := by
    rcases h.ready hNode with hMem | hAsk | ⟨hStatus, -⟩
    · exact Or.inl (List.mem_append_left _ hMem)
    · exact Or.inr (Or.inl hAsk)
    · refine Or.inr (Or.inr ⟨hStatus, fun hLast => ?_⟩)
      rw [lastFlag_concat, hFlag] at hLast
      cases hLast
  failed hNode hError := by
    rcases h.failed hNode hError with ⟨payload, hMem⟩ | hShown
    · exact Or.inl ⟨payload, List.mem_append_left _ hMem⟩
    · exact Or.inr hShown

/-- Delivering the oldest event keeps the view tracking. -/
theorem Tracked.deliver (h : s.Tracked) {event : LifecycleEvent} {rest : List LifecycleEvent}
    (hEvents : s.events = event :: rest) :
    ({ s with events := rest, store := s.store.receive event } : NodeView).Tracked := by
  have hAnnounced : Announced s.backend (event :: rest) := hEvents ▸ h.announced
  have hKept : ∀ {e}, e ≠ event → e ∈ s.events → e ∈ rest := by
    intro e hOther hMem
    rw [hEvents] at hMem
    exact (List.mem_cons.mp hMem).resolve_left hOther
  cases event with
  | ready =>
      refine h.asking hAnnounced.tail (refreshInFlight_refresh _)
        (fun _ ha => (refreshInFlight_of_read ha).1) (fun _ ha => Or.inl ?_)
      show s.store.clearFallback.refresh.waitStartedAt = none
      rw [(refreshInFlight_of_read ha).2]
      rfl
  | networkReady =>
      refine h.asking hAnnounced.tail (refreshInFlight_refresh _)
        (fun _ ha => (refreshInFlight_of_read ha).1)
        (fun _ ha => Or.inr ⟨?_, hKept (nomatch ·)⟩)
      show ({ s.store with isNetworkReady := true }.refresh).waitStartedAt = _
      rw [(refreshInFlight_of_read ha).2]
  | networkWarming =>
      constructor
      case announced => exact hAnnounced.tail
      case readFrom => exact h.readFrom
      case wait =>
        intro a ha hStarting hNode hGone
        exact h.wait a ha hStarting hNode fun hMem => hGone (hKept (nomatch ·) hMem)
      case ready =>
        intro hNode
        rcases h.ready hNode with hMem | hAsk | ⟨hStatus, -⟩
        · exact Or.inl (hKept (nomatch ·) hMem)
        · exact Or.inr (Or.inl hAsk)
        · exact Or.inr (Or.inr ⟨hStatus, fun hLast => (hAnnounced.flag_head rfl hLast).symm⟩)
      case failed =>
        intro hNode hError
        rcases h.failed hNode hError with ⟨payload, hMem⟩ | hAsk | ⟨hStatus, -⟩
        · exact Or.inl ⟨payload, hKept (nomatch ·) hMem⟩
        · exact Or.inr (Or.inl hAsk)
        · exact Or.inr (Or.inr ⟨hStatus, rfl⟩)
  | failed payload =>
      obtain ⟨hDown, -⟩ := hAnnounced.failed payload List.mem_cons_self
      constructor
      case announced => exact hAnnounced.tail
      case readFrom => exact h.readFrom
      case wait => exact fun _ _ _ _ _ => rfl
      case ready => exact fun hNode => absurd hNode (by simp [hDown])
      case failed => exact fun _ _ => Or.inr (Or.inr ⟨rfl, rfl⟩)

/-- An event on its way to a node that has started is that of its start or of its network. -/
theorem Tracked.ready_mem_of_events (h : s.Tracked) (hNode : s.backend.node = true)
    (hEvents : s.events ≠ []) : .ready ∈ s.events ∨ lastFlag s.events ≠ none := by
  obtain ⟨event, hMem⟩ := List.exists_mem_of_ne_nil s.events hEvents
  cases event with
  | ready => exact Or.inl hMem
  | networkReady => exact Or.inr (lastFlag_ne_none hMem (by simp [LifecycleEvent.flag]))
  | networkWarming => exact Or.inr (lastFlag_ne_none hMem (by simp [LifecycleEvent.flag]))
  | failed payload =>
      have hDown := (h.announced.failed payload hMem).1
      rw [hNode] at hDown
      cases hDown

/-- An answer that is still current keeps the view tracking. -/
theorem Tracked.answer (h : s.Tracked) {a : NodeStatus} {now : Int}
    (ha : s.store.refreshInFlight = .read a) (hCurrent : s.AnswerCurrent (.answer now)) :
    ({ s with store := s.store.answer a now } : NodeView).Tracked := by
  have hIdle : ∀ b, (s.store.answer a now).refreshInFlight ≠ .read b := by
    intro b hb
    rw [answer_idle] at hb
    cases hb
  have hCurrent := hCurrent a ha
  constructor
  case announced => exact h.announced
  case readFrom => exact fun b hb => absurd hb (hIdle b)
  case wait => exact fun b hb => absurd hb (hIdle b)
  case ready =>
    intro hNode
    have hWait := h.wait a ha
    cases h.readFrom a ha with
    | starting =>
        have hUnsettled : isNodeStatusSettled ⟨.starting, none, some false⟩ = false := rfl
        rcases answer_unsettled hUnsettled now with hTimer | ⟨hWaited, -⟩
        · exact Or.inr (Or.inl (Or.inr hTimer))
        · by_cases hMem : .ready ∈ s.events
          · exact Or.inl hMem
          · exact absurd (hWait rfl hNode hMem) hWaited
    | ready v _ =>
        show _ ∨ WillAsk _ ∨ _
        simp only [answer_ready]
        rcases hCurrent rfl with hSame | hEvents
        · exact Or.inr (Or.inr ⟨trivial, fun _ => Option.some.inj hSame⟩)
        · rcases h.ready_mem_of_events hNode hEvents with hMem | hFlag
          · exact Or.inl hMem
          · exact Or.inr (Or.inr ⟨trivial, fun hLast => absurd hLast hFlag⟩)
    | failed error hDown _ => exact absurd hNode (by simp [hDown])
  case failed =>
    intro hNode _
    cases h.readFrom a ha with
    | starting =>
        have hUnsettled : isNodeStatusSettled ⟨.starting, none, some false⟩ = false := rfl
        rcases answer_unsettled hUnsettled now with hTimer | ⟨-, hShown⟩
        · exact Or.inr (Or.inl (Or.inr hTimer))
        · exact Or.inr (Or.inr hShown)
    | ready v hUp => exact absurd hNode (by simp [hUp])
    | failed error _ _ =>
        rcases answer_failed error now with hTimer | hShown
        · exact Or.inr (Or.inl (Or.inr hTimer))
        · exact Or.inr (Or.inr hShown)

/-- An answer whose flag is stale stands when nothing else is on its way. -/
theorem Tracked.answerCurrent_of_converged (h : s.Tracked) {a : NodeStatus} {now : Int}
    (ha : s.store.refreshInFlight = .read a)
    (hConverged : ({ s with store := s.store.answer a now } : NodeView).Converged) :
    s.AnswerCurrent (.answer now) := by
  intro b hb hReady
  obtain rfl := Poll.read.inj (ha.symm.trans hb)
  cases h.readFrom a ha with
  | starting => cases hReady
  | failed error _ _ => cases hReady
  | ready v hNode =>
      by_cases hEvents : s.events = []
      · rw [answer_ready] at hConverged
        have hShown := hConverged ⟨rfl, rfl, hEvents⟩
          (by simp [Settled, nodeStatusFromState, hNode])
        exact Or.inl (by simpa [nodeStatusFromState, hNode] using hShown.2)
      · exact Or.inr hEvents

end Steps

/-- One step keeps the store in touch with the node under just that condition. -/
theorem Tracked.next_iff {s t : NodeView} {label : NodeLabel} (h : s.Tracked)
    (hNext : s.next label = some t) :
    (s.AnswerCurrent label ↔ t.Converged) ∧ (t.Converged → t.Tracked) := by
  have hKept : ∀ {u : NodeView}, some u = some t → u.Tracked → s.AnswerCurrent label →
      (s.AnswerCurrent label ↔ t.Converged) ∧ (t.Converged → t.Tracked) := by
    intro u hSame hTracked hCurrent
    obtain rfl := Option.some.inj hSame
    exact ⟨⟨fun _ => hTracked.converged, fun _ => hCurrent⟩, fun _ => hTracked⟩
  cases label with
  | nodeStarted =>
      rw [next] at hNext
      split at hNext
      · next hFree => exact hKept hNext (h.nodeStarted hFree.2) trivial
      · cases hNext
  | nodeFailed error =>
      rw [next] at hNext
      split at hNext
      · next hFree => exact hKept hNext (h.nodeFailed hFree.1 hFree.2 error) trivial
      · cases hNext
  | networkReady => exact hKept hNext (h.network rfl) trivial
  | networkWarming =>
      rw [next] at hNext
      split at hNext
      · exact hKept hNext (h.network rfl) trivial
      · cases hNext
  | refresh => exact hKept hNext h.refresh trivial
  | read =>
      rw [next] at hNext
      split at hNext
      · exact hKept hNext h.read trivial
      · cases hNext
  | answer now =>
      rw [next] at hNext
      split at hNext
      · next a ha =>
          obtain rfl := Option.some.inj hNext
          have hBack := @Tracked.answerCurrent_of_converged s h a now ha
          exact ⟨⟨fun hCurrent => (h.answer ha hCurrent).converged, hBack⟩,
            fun hConverged => h.answer ha (hBack hConverged)⟩
      · cases hNext
  | deliver =>
      rw [next] at hNext
      split at hNext
      · cases hNext
      · next event rest hEvents => exact hKept hNext (h.deliver hEvents) trivial
  | fallback =>
      rw [next] at hNext
      split at hNext
      · exact hKept hNext h.fallback trivial
      · cases hNext

end NodeView

section Runs

/-- In every state of a run that is at rest the interface shows the settled backend,
if and only if each ready answer was handled while its network flag was still the
backend's or while an event was still on its way. -/
theorem node_status_converges_iff {backend : NodeBackend} {labels : List NodeLabel} {t : NodeView}
    (hRun : exec NodeView.next (NodeView.start backend) labels = some t) :
    Meets NodeView.next NodeView.AnswerCurrent (NodeView.start backend) labels ↔
      ∀ first s, first <+: labels →
        exec NodeView.next (NodeView.start backend) first = some s → s.Converged := by
  have hAny : Meets NodeView.next (fun _ _ => True) (NodeView.start backend) labels :=
    Meets.of_forall fun _ _ _ => trivial
  have hStart := NodeView.Tracked.start backend
  exact meets_iff_observed (fun _ _ _ h _ hNext => h.next_iff hNext) hAny hRun hStart
    hStart.converged

private def slowNetwork : List NodeLabel :=
  [.read, .answer 0, .nodeStarted, .fallback, .read, .deliver, .answer 1000, .networkReady,
    .deliver, .read, .answer 2500]

theorem node_status_converges_iff_slowNetwork : ∃ t,
    exec NodeView.next (NodeView.start ⟨false, none, false⟩) slowNetwork = some t ∧
      t.Converged ∧ t.store.isNetworkReady = true := by
  have hRun : ∃ t, exec NodeView.next (NodeView.start ⟨false, none, false⟩) slowNetwork = some t ∧
      t.store.isNetworkReady = true := by decide
  obtain ⟨t, hRun, hReady⟩ := hRun
  have hMeets : Meets NodeView.next NodeView.AnswerCurrent (NodeView.start ⟨false, none, false⟩)
      slowNetwork := by decide
  have hAll := (node_status_converges_iff hRun).mp hMeets
  exact ⟨t, hRun, hAll slowNetwork t (List.prefix_refl _) hRun, hReady⟩

/-- The network gets ready while the answer of a poll is on its way: the event's own
poll joins that one. -/
private def joinedPoll : List NodeLabel := [.read, .networkReady, .deliver, .answer 0]

theorem joinedPoll_not_converged : ∃ t,
    exec NodeView.next (NodeView.start ⟨true, none, false⟩) joinedPoll = some t ∧
      t.Quiescent ∧ t.Settled ∧ t.store.isNetworkReady = false ∧
      nodeStatusFromState t.backend = ⟨.ready, none, some true⟩ ∧ ¬t.Converged := by
  have hRun : ∃ t, exec NodeView.next (NodeView.start ⟨true, none, false⟩) joinedPoll = some t ∧
      (t.store.refreshInFlight = .idle ∧ t.store.fallbackTimer = false ∧ t.events = []) ∧
      t.store.isNetworkReady = false ∧
      nodeStatusFromState t.backend = ⟨.ready, none, some true⟩ := by decide
  obtain ⟨t, hRun, hQuiescent, hShown, hBackend⟩ := hRun
  have hSettled : t.Settled := by simp [NodeView.Settled, hBackend]
  refine ⟨t, hRun, hQuiescent, hSettled, hShown, hBackend, fun hConverged => ?_⟩
  have hFlag := (hConverged hQuiescent hSettled).2
  rw [hShown, hBackend] at hFlag
  cases hFlag

end Runs
end AltSendme.Frontend
