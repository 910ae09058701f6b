import AltSendme.Execution.Run
import Mathlib.Data.List.Nodup
import Mathlib.Logic.Function.Basic

/-! The event bus of the browser build (`web-event-bus.ts`): handler sets kept
by event name, and the functions `subscribeWebEvent` returns, each of which
holds on to the set its handler went into. Handlers are compared by identity. -/
namespace AltSendme.Frontend
open Execution

universe u

/-- A function returned by `subscribeWebEvent`: the variables it closes over.
`ended` says whether it has been called, which only the specification reads. -/
structure Unsubscribe (Handler : Type u) where
  eventName : String
  handlers : Nat
  handler : Handler
  ended : Bool
  deriving DecidableEq, Repr

/-- `listeners` holds references to sets, and `sets` the handlers of each set in
the order they were added; references from `created` on are not in use yet. -/
structure WebEventBus (Handler : Type u) where
  listeners : String → Option Nat
  sets : Nat → List Handler
  created : Nat
  returned : List (Unsubscribe Handler)

structure WebEvent where
  payload : Option String
  deriving DecidableEq, Repr

inductive BusCall (Handler : Type u) where
  | subscribeWebEvent (eventName : String) (handler : Handler)
  | unsubscribe (i : Nat)
  deriving DecidableEq, Repr

namespace WebEventBus

variable {Handler : Type u}

def start : WebEventBus Handler := ⟨fun _ => none, fun _ => [], 0, []⟩

/-- The handlers of the set that is in the map. -/
def handlersOf (s : WebEventBus Handler) (eventName : String) : List Handler :=
  (s.listeners eventName).elim [] s.sets

/-- The calls made, in order. An absent payload is passed on as `null`. -/
def dispatchWebEvent (s : WebEventBus Handler) (eventName : String) (payload : Option String) :
    List (Handler × WebEvent) :=
  (s.handlersOf eventName).map fun handler => (handler, ⟨payload⟩)

/-- The set of the event, created if there is none. -/
def handlersFor (s : WebEventBus Handler) (eventName : String) : WebEventBus Handler × Nat :=
  match s.listeners eventName with
  | some handlers => (s, handlers)
  | none =>
      ({ s with
          listeners := Function.update s.listeners eventName (some s.created)
          sets := Function.update s.sets s.created []
          created := s.created + 1 }, s.created)

section Calls
variable [DecidableEq Handler]

/-- `Set.add`. -/
def add (handlers : List Handler) (handler : Handler) : List Handler :=
  if handler ∈ handlers then handlers else handlers ++ [handler]

/-- `Set.delete`. -/
def delete (handlers : List Handler) (handler : Handler) : List Handler :=
  handlers.filter (· ≠ handler)

def subscribeWebEvent (s : WebEventBus Handler) (eventName : String) (handler : Handler) :
    WebEventBus Handler :=
  let (bus, handlers) := s.handlersFor eventName
  { bus with
    sets := Function.update bus.sets handlers (add (bus.sets handlers) handler)
    returned := bus.returned ++ [⟨eventName, handlers, handler, false⟩] }

/-- The body of the returned function. -/
def callUnsubscribe (s : WebEventBus Handler) (c : Unsubscribe Handler) : WebEventBus Handler :=
  let handlers := delete (s.sets c.handlers) c.handler
  { s with
    sets := Function.update s.sets c.handlers handlers
    listeners :=
      if handlers = [] then Function.update s.listeners c.eventName none else s.listeners }

/-- A function that has not been returned cannot be called. -/
def next (s : WebEventBus Handler) : BusCall Handler → Option (WebEventBus Handler)
  | .subscribeWebEvent eventName handler => some (s.subscribeWebEvent eventName handler)
  | .unsubscribe i => (s.returned[i]?).map fun c =>
      { s.callUnsubscribe c with returned := s.returned.set i { c with ended := true } }

end Calls

/-- A subscription that has been made and not ended. -/
def Live (s : WebEventBus Handler) (eventName : String) (handler : Handler) : Prop :=
  ∃ c ∈ s.returned, c.ended = false ∧ c.eventName = eventName ∧ c.handler = handler

instance [DecidableEq Handler] (s : WebEventBus Handler) (eventName : String)
    (handler : Handler) : Decidable (s.Live eventName handler) := by
  unfold Live
  infer_instance

/-- A dispatch calls each handler with a live subscription once, with the payload
given, and nothing else. -/
def DeliversExactly (s : WebEventBus Handler) : Prop :=
  ∀ eventName payload, (s.dispatchWebEvent eventName payload).Nodup ∧
    ∀ called, called ∈ s.dispatchWebEvent eventName payload ↔
      s.Live eventName called.1 ∧ called.2 = ⟨payload⟩

/-- While another subscription to the event is live, the function called must
have another handler and hold the set that is in the map. -/
def EndsOwn (s : WebEventBus Handler) : BusCall Handler → Prop
  | .subscribeWebEvent _ _ => True
  | .unsubscribe i => ∀ c ∈ s.returned[i]?, ∀ other ∈ s.returned.eraseIdx i,
      other.ended = false → other.eventName = c.eventName →
        other.handler ≠ c.handler ∧ s.listeners c.eventName = some c.handlers

instance [DecidableEq Handler] (s : WebEventBus Handler) (call : BusCall Handler) :
    Decidable (s.EndsOwn call) := by
  cases call <;> unfold EndsOwn <;> infer_instance

section Sets
variable [DecidableEq Handler]

/-- A set holds what it held and what was added. -/
@[simp] theorem mem_add {handlers : List Handler} {handler h : Handler} :
    h ∈ add handlers handler ↔ h ∈ handlers ∨ h = handler := by
  unfold add
  split
  · next hMem =>
      constructor
      · exact Or.inl
      · rintro (h' | rfl)
        · exact h'
        · exact hMem
  · simp

/-- Adding to a set never doubles a handler. -/
theorem nodup_add {handlers : List Handler} (h : handlers.Nodup) (handler : Handler) :
    (add handlers handler).Nodup := by
  unfold add
  split
  · exact h
  · next hNew =>
      refine List.nodup_append.mpr ⟨h, List.nodup_singleton handler, ?_⟩
      intro a ha b hb hEq
      rw [List.mem_singleton] at hb
      exact hNew (hb ▸ hEq ▸ ha)

theorem add_ne_nil (handlers : List Handler) (handler : Handler) : add handlers handler ≠ [] :=
  List.ne_nil_of_mem (mem_add.mpr (Or.inr rfl))

@[simp] theorem mem_delete {handlers : List Handler} {handler h : Handler} :
    h ∈ delete handlers handler ↔ h ∈ handlers ∧ h ≠ handler := by
  simp [delete]

/-- Deleting from a set never doubles a handler. -/
theorem nodup_delete {handlers : List Handler} (h : handlers.Nodup) (handler : Handler) :
    (delete handlers handler).Nodup := h.filter _

end Sets

/-- Deliveries by the handlers of the set in the map. -/
theorem deliversExactly_iff {s : WebEventBus Handler} : s.DeliversExactly ↔
    ∀ eventName, (s.handlersOf eventName).Nodup ∧
      ∀ handler, handler ∈ s.handlersOf eventName ↔ s.Live eventName handler := by
  have hInjective : ∀ payload : Option String,
      Function.Injective fun handler : Handler => (handler, (⟨payload⟩ : WebEvent)) :=
    fun payload a b hEq => congrArg Prod.fst hEq
  constructor
  · intro h eventName
    obtain ⟨hNodup, hMem⟩ := h eventName none
    refine ⟨(List.nodup_map_iff (hInjective none)).mp hNodup, fun handler => ?_⟩
    have := hMem (handler, ⟨none⟩)
    simpa [dispatchWebEvent] using this
  · intro h eventName payload
    obtain ⟨hNodup, hMem⟩ := h eventName
    refine ⟨(List.nodup_map_iff (hInjective payload)).mpr hNodup, fun called => ?_⟩
    obtain ⟨handler, event⟩ := called
    simp only [dispatchWebEvent, List.mem_map, Prod.mk.injEq, ← hMem handler]
    constructor
    · rintro ⟨a, ha, rfl, rfl⟩
      exact ⟨ha, rfl⟩
    · rintro ⟨ha, rfl⟩
      exact ⟨handler, ha, rfl, rfl⟩

/-- How the map, the sets and the returned functions hang together as long as
every dispatch delivers exactly. -/
structure Tied (s : WebEventBus Handler) : Prop where
  returned_lt : ∀ c ∈ s.returned, c.handlers < s.created
  listeners_lt : ∀ e r, s.listeners e = some r → r < s.created
  owner : ∀ c ∈ s.returned, ∀ e, s.listeners e = some c.handlers → e = c.eventName
  apart : ∀ e e' r, s.listeners e = some r → s.listeners e' = some r → e = e'
  nodup : ∀ r, (s.sets r).Nodup
  filled : ∀ e r, s.listeners e = some r → s.sets r ≠ []
  dropped : ∀ r, (∀ e, s.listeners e ≠ some r) → s.sets r = []
  current : ∀ c ∈ s.returned, c.ended = false → s.listeners c.eventName = some c.handlers
  members : ∀ e h, h ∈ s.handlersOf e ↔ s.Live e h

/-- An empty bus is tied. -/
theorem Tied.start : (start : WebEventBus Handler).Tied where
  returned_lt := by simp [WebEventBus.start]
  listeners_lt := by simp [WebEventBus.start]
  owner := by simp [WebEventBus.start]
  apart := by simp [WebEventBus.start]
  nodup := by simp [WebEventBus.start]
  filled := by simp [WebEventBus.start]
  dropped := by simp [WebEventBus.start]
  current := by simp [WebEventBus.start]
  members := by simp [WebEventBus.start, handlersOf, Live]

/-- A tied bus delivers every event to the live subscriptions and to nobody else. -/
theorem Tied.deliversExactly {s : WebEventBus Handler} (h : s.Tied) : s.DeliversExactly := by
  refine deliversExactly_iff.mpr fun eventName => ⟨?_, h.members eventName⟩
  unfold handlersOf
  cases s.listeners eventName with
  | none => exact List.nodup_nil
  | some r => exact h.nodup r

theorem handlersOf_some {s : WebEventBus Handler} {e : String} {r : Nat}
    (h : s.listeners e = some r) : s.handlersOf e = s.sets r := by
  simp [handlersOf, h]

theorem handlersOf_none {s : WebEventBus Handler} {e : String}
    (h : s.listeners e = none) : s.handlersOf e = [] := by
  simp [handlersOf, h]

section Subscribe

/-- A new subscription makes its own handler live and no other. -/
theorem live_append {s t : WebEventBus Handler} {c : Unsubscribe Handler}
    (h : t.returned = s.returned ++ [c]) (hOpen : c.ended = false) (e : String)
    (handler : Handler) :
    t.Live e handler ↔ s.Live e handler ∨ (c.eventName = e ∧ c.handler = handler) := by
  simp only [Live, h, List.mem_append, List.mem_singleton]
  constructor
  · rintro ⟨d, hd | rfl, hEnded, hName, hHandler⟩
    · exact Or.inl ⟨d, hd, hEnded, hName, hHandler⟩
    · exact Or.inr ⟨hName, hHandler⟩
  · rintro (⟨d, hd, hRest⟩ | ⟨hName, hHandler⟩)
    · exact ⟨d, Or.inl hd, hRest⟩
    · exact ⟨c, Or.inr rfl, hOpen, hName, hHandler⟩

variable [DecidableEq Handler]

/-- The event has a set already: the handler goes into it. -/
theorem Tied.subscribe_some {s : WebEventBus Handler} (hTied : s.Tied) {eventName : String}
    {r : Nat} (hSet : s.listeners eventName = some r) (handler : Handler) :
    (s.subscribeWebEvent eventName handler).Tied := by
  have hEq : s.subscribeWebEvent eventName handler =
      { s with
        sets := Function.update s.sets r (add (s.sets r) handler)
        returned := s.returned ++ [⟨eventName, r, handler, false⟩] } := by
    simp [subscribeWebEvent, handlersFor, hSet]
  rw [hEq]
  constructor
  case returned_lt =>
    intro c hc
    rcases List.mem_append.mp hc with hc | hc
    · exact hTied.returned_lt c hc
    · obtain rfl := List.mem_singleton.mp hc
      exact hTied.listeners_lt eventName r hSet
  case listeners_lt => exact hTied.listeners_lt
  case owner =>
    intro c hc e he
    rcases List.mem_append.mp hc with hc | hc
    · exact hTied.owner c hc e he
    · obtain rfl := List.mem_singleton.mp hc
      exact hTied.apart e eventName r he hSet
  case apart => exact hTied.apart
  case nodup =>
    intro r'
    by_cases hr : r' = r
    · subst hr
      simpa using nodup_add (hTied.nodup r') handler
    · simpa [Function.update_of_ne hr] using hTied.nodup r'
  case filled =>
    intro e r' he
    by_cases hr : r' = r
    · subst hr
      simpa using add_ne_nil (s.sets r') handler
    · simpa [Function.update_of_ne hr] using hTied.filled e r' he
  case dropped =>
    intro r' hr'
    have hr : r' ≠ r := fun hr => hr' eventName (hr ▸ hSet)
    simpa [Function.update_of_ne hr] using hTied.dropped r' hr'
  case current =>
    intro c hc hOpen
    rcases List.mem_append.mp hc with hc | hc
    · exact hTied.current c hc hOpen
    · obtain rfl := List.mem_singleton.mp hc
      exact hSet
  case members =>
    intro e h
    rw [live_append rfl rfl, ← hTied.members e h]
    by_cases he : e = eventName
    · subst he
      simp [handlersOf, hSet, @eq_comm _ handler h]
    · have hOther : eventName ≠ e := Ne.symm he
      cases hSlot : s.listeners e with
      | none => simp [handlersOf, hSlot, hOther]
      | some r' =>
          have hr : r' ≠ r := fun hr => he (hTied.apart e eventName r (hr ▸ hSlot) hSet)
          simp [handlersOf, hSlot, hOther, Function.update_of_ne hr]

/-- The event has none: a new set takes the handler. -/
theorem Tied.subscribe_none {s : WebEventBus Handler} (hTied : s.Tied) {eventName : String}
    (hSet : s.listeners eventName = none) (handler : Handler) :
    (s.subscribeWebEvent eventName handler).Tied := by
  have hEq : s.subscribeWebEvent eventName handler =
      { listeners := Function.update s.listeners eventName (some s.created)
        sets := Function.update s.sets s.created [handler]
        created := s.created + 1
        returned := s.returned ++ [⟨eventName, s.created, handler, false⟩] } := by
    simp [subscribeWebEvent, handlersFor, hSet, add]
  rw [hEq]
  have hSlots : ∀ e r, Function.update s.listeners eventName (some s.created) e = some r →
      (e = eventName ∧ r = s.created) ∨ (e ≠ eventName ∧ s.listeners e = some r) := by
    intro e r he
    by_cases hName : e = eventName
    · subst hName
      exact Or.inl ⟨rfl, by simpa using he.symm⟩
    · rw [Function.update_of_ne hName] at he
      exact Or.inr ⟨hName, he⟩
  constructor
  case returned_lt =>
    intro c hc
    rcases List.mem_append.mp hc with hc | hc
    · exact Nat.lt_succ_of_lt (hTied.returned_lt c hc)
    · obtain rfl := List.mem_singleton.mp hc
      exact Nat.lt_succ_self _
  case listeners_lt =>
    intro e r he
    rcases hSlots e r he with ⟨-, rfl⟩ | ⟨-, he⟩
    · exact Nat.lt_succ_self _
    · exact Nat.lt_succ_of_lt (hTied.listeners_lt e r he)
  case owner =>
    intro c hc e he
    rcases List.mem_append.mp hc with hc | hc
    · rcases hSlots e c.handlers he with ⟨-, hr⟩ | ⟨-, he⟩
      · exact absurd hr (Nat.ne_of_lt (hTied.returned_lt c hc))
      · exact hTied.owner c hc e he
    · obtain rfl := List.mem_singleton.mp hc
      rcases hSlots e s.created he with ⟨rfl, -⟩ | ⟨-, he⟩
      · rfl
      · exact absurd (hTied.listeners_lt e _ he) (Nat.lt_irrefl _)
  case apart =>
    intro e e' r he he'
    rcases hSlots e r he with ⟨rfl, hr⟩ | ⟨-, he⟩
    · rcases hSlots e' r he' with ⟨rfl, -⟩ | ⟨-, he'⟩
      · rfl
      · exact absurd hr (Nat.ne_of_lt (hTied.listeners_lt e' r he'))
    · rcases hSlots e' r he' with ⟨-, hr⟩ | ⟨-, he'⟩
      · exact absurd hr (Nat.ne_of_lt (hTied.listeners_lt e r he))
      · exact hTied.apart e e' r he he'
  case nodup =>
    intro r
    by_cases hr : r = s.created
    · subst hr
      simp
    · simpa [Function.update_of_ne hr] using hTied.nodup r
  case filled =>
    intro e r he
    rcases hSlots e r he with ⟨-, rfl⟩ | ⟨-, he⟩
    · simp
    · have hr := Nat.ne_of_lt (hTied.listeners_lt e r he)
      simpa [Function.update_of_ne hr] using hTied.filled e r he
  case dropped =>
    intro r hr'
    have hr : r ≠ s.created := fun hr => hr' eventName (by simp [hr])
    have hOld : ∀ e, s.listeners e ≠ some r := by
      intro e he
      by_cases hName : e = eventName
      · rw [hName, hSet] at he
        cases he
      · exact hr' e (by simpa [Function.update_of_ne hName] using he)
    simpa [Function.update_of_ne hr] using hTied.dropped r hOld
  case current =>
    intro c hc hOpen
    rcases List.mem_append.mp hc with hc | hc
    · have hSlot := hTied.current c hc hOpen
      have hName : c.eventName ≠ eventName := by
        intro hName
        rw [hName, hSet] at hSlot
        cases hSlot
      simpa [Function.update_of_ne hName] using hSlot
    · obtain rfl := List.mem_singleton.mp hc
      simp
  case members =>
    intro e h
    rw [live_append rfl rfl, ← hTied.members e h]
    by_cases he : e = eventName
    · subst he
      rw [handlersOf_none hSet]
      simp [handlersOf, eq_comm]
    · have hOther : eventName ≠ e := Ne.symm he
      cases hSlot : s.listeners e with
      | none => simp [handlersOf, hSlot, hOther, Function.update_of_ne he]
      | some r =>
          have hr := Nat.ne_of_lt (hTied.listeners_lt e r hSlot)
          simp [handlersOf, hSlot, hOther, Function.update_of_ne he, Function.update_of_ne hr]

/-- A subscription keeps the bus tied. -/
theorem Tied.subscribe {s : WebEventBus Handler} (hTied : s.Tied) (eventName : String)
    (handler : Handler) : (s.subscribeWebEvent eventName handler).Tied := by
  cases hSet : s.listeners eventName with
  | none => exact hTied.subscribe_none hSet handler
  | some r => exact hTied.subscribe_some hSet handler

end Subscribe

section End

/-- A subscription other than the one that function `i` ends. -/
def OtherLive (s : WebEventBus Handler) (i : Nat) (eventName : String) (handler : Handler) : Prop :=
  ∃ c ∈ s.returned.eraseIdx i, c.ended = false ∧ c.eventName = eventName ∧ c.handler = handler

/-- A handler is live through one given subscription or through another. -/
theorem live_iff_otherLive {s : WebEventBus Handler} {i : Nat} {c : Unsubscribe Handler}
    (hCall : s.returned[i]? = some c) (e : String) (h : Handler) :
    s.Live e h ↔ s.OtherLive i e h ∨ (c.ended = false ∧ c.eventName = e ∧ c.handler = h) := by
  simp only [Live, OtherLive, List.mem_eraseIdx_iff_getElem?]
  simp only [List.mem_iff_getElem?]
  constructor
  · rintro ⟨d, ⟨j, hd⟩, hRest⟩
    by_cases hj : j = i
    · obtain rfl : c = d := Option.some.inj (hCall.symm.trans (hj ▸ hd))
      exact Or.inr hRest
    · exact Or.inl ⟨d, ⟨j, hj, hd⟩, hRest⟩
  · rintro (⟨d, ⟨j, -, hd⟩, hRest⟩ | hRest)
    · exact ⟨d, ⟨j, hd⟩, hRest⟩
    · exact ⟨c, ⟨i, hCall⟩, hRest⟩

/-- Once function `i` has been called, the others are the live ones. -/
theorem live_set_iff {s t : WebEventBus Handler} {i : Nat} {c : Unsubscribe Handler}
    (hSet : t.returned = s.returned.set i { c with ended := true }) (e : String) (h : Handler) :
    t.Live e h ↔ s.OtherLive i e h := by
  simp only [Live, OtherLive, hSet, List.mem_eraseIdx_iff_getElem?]
  simp only [List.mem_iff_getElem?, List.getElem?_set]
  constructor
  · rintro ⟨d, ⟨j, hd⟩, hOpen, hRest⟩
    by_cases hj : i = j
    · subst hj
      rw [if_pos rfl] at hd
      split at hd
      · obtain rfl := Option.some.inj hd
        cases hOpen
      · cases hd
    · rw [if_neg hj] at hd
      exact ⟨d, ⟨j, Ne.symm hj, hd⟩, hOpen, hRest⟩
  · rintro ⟨d, ⟨j, hj, hd⟩, hRest⟩
    exact ⟨d, ⟨j, by rw [if_neg (Ne.symm hj), hd]⟩, hRest⟩

/-- An unsubscription ends its own subscription exactly if nobody else needs the handler and
the set is still the event's. -/
theorem endsOwn_iff {s : WebEventBus Handler} {i : Nat} {c : Unsubscribe Handler}
    (hCall : s.returned[i]? = some c) : s.EndsOwn (.unsubscribe i) ↔
      ∀ h, s.OtherLive i c.eventName h →
        h ≠ c.handler ∧ s.listeners c.eventName = some c.handlers := by
  constructor
  · rintro hOwn h ⟨d, hd, hOpen, hName, rfl⟩
    exact hOwn c hCall d hd hOpen hName
  · intro hOwn c' hc' d hd hOpen hName
    obtain rfl : c = c' := Option.some.inj (hCall.symm.trans hc')
    exact hOwn d.handler ⟨d, hd, hOpen, hName, rfl⟩

/-- A set that has been dropped from the map is empty and stays so. -/
theorem Tied.stale {s : WebEventBus Handler} (hTied : s.Tied) {c : Unsubscribe Handler}
    (hc : c ∈ s.returned) (hStale : s.listeners c.eventName ≠ some c.handlers) :
    s.sets c.handlers = [] := by
  refine hTied.dropped c.handlers fun e he => hStale ?_
  rw [← hTied.owner c hc e he]
  exact he

variable [DecidableEq Handler]

/-- The call takes the handler out of the event's set, and a stale one leaves
the event without a set. -/
theorem handlersOf_callUnsubscribe {s : WebEventBus Handler} (hTied : s.Tied)
    {c : Unsubscribe Handler} (hc : c ∈ s.returned) (e : String) :
    (s.callUnsubscribe c).handlersOf e =
      if e = c.eventName then delete (s.sets c.handlers) c.handler else s.handlersOf e := by
  have hKept : ∀ e r, e ≠ c.eventName → s.listeners e = some r → r ≠ c.handlers :=
    fun e r hName he hr => hName (hTied.owner c hc e (hr ▸ he))
  by_cases hEmpty : delete (s.sets c.handlers) c.handler = []
  · by_cases hName : e = c.eventName
    · simp [handlersOf, callUnsubscribe, hEmpty, hName]
    · cases hSlot : s.listeners e with
      | none => simp [handlersOf, callUnsubscribe, hEmpty, hName, Function.update_of_ne, hSlot]
      | some r =>
          have hr := hKept e r hName hSlot
          simp [handlersOf, callUnsubscribe, hEmpty, hName, Function.update_of_ne, hSlot, hr]
  · have hCurrent : s.listeners c.eventName = some c.handlers := by
      by_contra hStale
      exact hEmpty (by rw [hTied.stale hc hStale]; rfl)
    by_cases hName : e = c.eventName
    · simp [handlersOf, callUnsubscribe, hEmpty, hName, hCurrent]
    · cases hSlot : s.listeners e with
      | none => simp [handlersOf, callUnsubscribe, hEmpty, hName, hSlot]
      | some r =>
          have hr := hKept e r hName hSlot
          simp [handlersOf, callUnsubscribe, hEmpty, hName, Function.update_of_ne, hSlot, hr]

/-- The state after function `i` has been called. -/
def afterEnd (s : WebEventBus Handler) (i : Nat) (c : Unsubscribe Handler) : WebEventBus Handler :=
  { s.callUnsubscribe c with returned := s.returned.set i { c with ended := true } }

theorem next_unsubscribe {s : WebEventBus Handler} {i : Nat} {c : Unsubscribe Handler}
    (hCall : s.returned[i]? = some c) : s.next (.unsubscribe i) = some (s.afterEnd i c) := by
  simp [next, hCall, afterEnd]

/-- After an unsubscription the others are live. -/
theorem live_afterEnd {s : WebEventBus Handler} {i : Nat} {c : Unsubscribe Handler}
    (e : String) (h : Handler) : (s.afterEnd i c).Live e h ↔ s.OtherLive i e h :=
  live_set_iff rfl e h

/-- An unsubscription deletes its handler from the event's set and from no other. -/
theorem handlersOf_afterEnd {s : WebEventBus Handler} (hTied : s.Tied) {i : Nat}
    {c : Unsubscribe Handler} (hc : c ∈ s.returned) (e : String) :
    (s.afterEnd i c).handlersOf e =
      if e = c.eventName then delete (s.sets c.handlers) c.handler else s.handlersOf e :=
  handlersOf_callUnsubscribe hTied hc e

/-- The map only loses the event of the function, and only when its set is empty. -/
theorem listeners_afterEnd {s : WebEventBus Handler} {i : Nat} {c : Unsubscribe Handler}
    {e : String} {r : Nat} : (s.afterEnd i c).listeners e = some r ↔
      s.listeners e = some r ∧
        ¬(delete (s.sets c.handlers) c.handler = [] ∧ e = c.eventName) := by
  by_cases hEmpty : delete (s.sets c.handlers) c.handler = []
  · by_cases hName : e = c.eventName
    · simp [afterEnd, callUnsubscribe, hEmpty, hName]
    · simp [afterEnd, callUnsubscribe, hEmpty, hName, Function.update_of_ne]
  · simp [afterEnd, callUnsubscribe, hEmpty]

/-- An unsubscription closes no closure but its own. -/
theorem mem_returned_afterEnd {s : WebEventBus Handler} {i : Nat} {c d : Unsubscribe Handler}
    (hc : c ∈ s.returned) (hd : d ∈ (s.afterEnd i c).returned) :
    ∃ d' ∈ s.returned, d'.handlers = d.handlers ∧ d'.eventName = d.eventName ∧
      (d.ended = false → d' = d) := by
  rcases List.mem_or_eq_of_mem_set hd with hOld | rfl
  · exact ⟨d, hOld, rfl, rfl, fun _ => rfl⟩
  · exact ⟨c, hc, rfl, rfl, fun hOpen => nomatch hOpen⟩

/-- Exact deliveries after the call tell that it ended nobody else. -/
theorem Tied.endsOwn_of_deliversExactly {s : WebEventBus Handler} (hTied : s.Tied) {i : Nat}
    {c : Unsubscribe Handler} (hCall : s.returned[i]? = some c)
    (hExact : (s.afterEnd i c).DeliversExactly) : s.EndsOwn (.unsubscribe i) := by
  have hc := List.mem_of_getElem? hCall
  refine (endsOwn_iff hCall).mpr fun h hOther => ?_
  have hMem := ((deliversExactly_iff.mp hExact c.eventName).2 h).mpr
    ((live_afterEnd c.eventName h).mpr hOther)
  rw [handlersOf_afterEnd hTied hc, if_pos rfl, mem_delete] at hMem
  refine ⟨hMem.2, ?_⟩
  by_contra hStale
  rw [hTied.stale hc hStale] at hMem
  exact List.not_mem_nil hMem.1

/-- A call that ends nobody else keeps everything tied together. -/
theorem Tied.afterEnd {s : WebEventBus Handler} (hTied : s.Tied) {i : Nat}
    {c : Unsubscribe Handler} (hCall : s.returned[i]? = some c)
    (hOwn : s.EndsOwn (.unsubscribe i)) : (s.afterEnd i c).Tied := by
  have hc := List.mem_of_getElem? hCall
  rw [endsOwn_iff hCall] at hOwn
  have hCurrent : ∀ h, h ∈ s.sets c.handlers → s.listeners c.eventName = some c.handlers := by
    intro h hMem
    by_contra hStale
    rw [hTied.stale hc hStale] at hMem
    exact List.not_mem_nil hMem
  have hSets : ∀ r, r ≠ c.handlers → (s.afterEnd i c).sets r = s.sets r :=
    fun r hr => Function.update_of_ne hr _ _
  have hSet : (s.afterEnd i c).sets c.handlers = delete (s.sets c.handlers) c.handler :=
    Function.update_self _ _ _
  constructor
  case returned_lt =>
    intro d hd
    obtain ⟨d', hOld, hr, -⟩ := mem_returned_afterEnd hc hd
    exact hr ▸ hTied.returned_lt d' hOld
  case listeners_lt =>
    intro e r he
    exact hTied.listeners_lt e r (listeners_afterEnd.mp he).1
  case owner =>
    intro d hd e he
    obtain ⟨d', hOld, hr, hName, -⟩ := mem_returned_afterEnd hc hd
    rw [← hName]
    exact hTied.owner d' hOld e (hr ▸ (listeners_afterEnd.mp he).1)
  case apart =>
    intro e e' r he he'
    exact hTied.apart e e' r (listeners_afterEnd.mp he).1 (listeners_afterEnd.mp he').1
  case nodup =>
    intro r
    by_cases hr : r = c.handlers
    · rw [hr, hSet]
      exact nodup_delete (hTied.nodup _) _
    · rw [hSets r hr]
      exact hTied.nodup r
  case filled =>
    intro e r he
    obtain ⟨hSlot, hKept⟩ := listeners_afterEnd.mp he
    by_cases hr : r = c.handlers
    · subst hr
      rw [hSet]
      exact fun hEmpty => hKept ⟨hEmpty, hTied.owner c hc e hSlot⟩
    · rw [hSets r hr]
      exact hTied.filled e r hSlot
  case dropped =>
    intro r hGone
    by_cases hr : r = c.handlers
    · subst hr
      rw [hSet]
      refine List.eq_nil_iff_forall_not_mem.mpr fun h hMem => ?_
      have hSlot := hCurrent h (mem_delete.mp hMem).1
      exact hGone c.eventName (listeners_afterEnd.mpr
        ⟨hSlot, fun hEmpty => List.ne_nil_of_mem hMem hEmpty.1⟩)
    · rw [hSets r hr]
      -- a set that loses its event to a stale call would have had live handlers
      refine hTied.dropped r fun e hSlot => ?_
      have hLost : delete (s.sets c.handlers) c.handler = [] ∧ e = c.eventName := by
        by_contra hKept
        exact hGone e (listeners_afterEnd.mpr ⟨hSlot, hKept⟩)
      obtain ⟨-, rfl⟩ := hLost
      obtain ⟨h, hMem⟩ := List.exists_mem_of_ne_nil _ (hTied.filled _ _ hSlot)
      have hLive := (hTied.members c.eventName h).mp (by rwa [handlersOf_some hSlot])
      have hSame : s.listeners c.eventName = some c.handlers := by
        rcases (live_iff_otherLive hCall _ h).mp hLive with hOther | ⟨hOpen, -⟩
        · exact (hOwn h hOther).2
        · exact hTied.current c hc hOpen
      exact hr (Option.some.inj (hSlot.symm.trans hSame))
  case current =>
    intro d hd hOpen
    have hOther := (live_afterEnd d.eventName d.handler).mp ⟨d, hd, hOpen, rfl, rfl⟩
    obtain ⟨d', hOld, -, -, hSame⟩ := mem_returned_afterEnd hc hd
    obtain rfl := hSame hOpen
    refine listeners_afterEnd.mpr ⟨hTied.current d' hOld hOpen, ?_⟩
    rintro ⟨hEmpty, hName⟩
    obtain ⟨hDiffers, hSlot⟩ := hOwn d'.handler (hName ▸ hOther)
    have hMem := (hTied.members c.eventName d'.handler).mpr ⟨d', hOld, hOpen, hName, rfl⟩
    rw [handlersOf_some hSlot] at hMem
    exact List.ne_nil_of_mem (mem_delete.mpr ⟨hMem, hDiffers⟩) hEmpty
  case members =>
    intro e h
    rw [handlersOf_afterEnd hTied hc, live_afterEnd]
    split
    · next hName =>
        subst hName
        rw [mem_delete]
        constructor
        · rintro ⟨hMem, hDiffers⟩
          have hLive := (hTied.members c.eventName h).mp
            (by rwa [handlersOf_some (hCurrent h hMem)])
          rcases (live_iff_otherLive hCall _ h).mp hLive with hOther | ⟨-, -, hSame⟩
          · exact hOther
          · exact absurd hSame.symm hDiffers
        · intro hOther
          obtain ⟨hDiffers, hSlot⟩ := hOwn h hOther
          have hMem := (hTied.members c.eventName h).mpr
            ((live_iff_otherLive hCall _ h).mpr (Or.inl hOther))
          rw [handlersOf_some hSlot] at hMem
          exact ⟨hMem, hDiffers⟩
    · next hName =>
        rw [hTied.members e h, live_iff_otherLive hCall]
        constructor
        · rintro (hOther | ⟨-, hSame, -⟩)
          · exact hOther
          · exact absurd hSame.symm hName
        · exact Or.inl

end End

/-- One call keeps deliveries exact under just that condition. -/
theorem Tied.next_iff [DecidableEq Handler] {s t : WebEventBus Handler} {call : BusCall Handler}
    (hTied : s.Tied) (hNext : s.next call = some t) :
    (s.EndsOwn call ↔ t.DeliversExactly) ∧ (t.DeliversExactly → t.Tied) := by
  cases call with
  | subscribeWebEvent eventName handler =>
      obtain rfl := Option.some.inj hNext
      have hAfter := hTied.subscribe eventName handler
      exact ⟨⟨fun _ => hAfter.deliversExactly, fun _ => trivial⟩, fun _ => hAfter⟩
  | unsubscribe i =>
      cases hCall : s.returned[i]? with
      | none => simp [next, hCall] at hNext
      | some c =>
          obtain rfl := Option.some.inj ((next_unsubscribe hCall).symm.trans hNext)
          have hBack := @Tied.endsOwn_of_deliversExactly _ _ s hTied i c hCall
          exact ⟨⟨fun hOwn => (hTied.afterEnd hCall hOwn).deliversExactly, hBack⟩,
            fun hExact => hTied.afterEnd hCall (hBack hExact)⟩

end WebEventBus

section Runs
variable {Handler : Type u} [DecidableEq Handler]

/-- In every state of a run a dispatch reaches just the live subscriptions, if and
only if each function called, while another subscription to its event was live,
had another handler and held the set in the map. -/
theorem delivers_exactly_iff {calls : List (BusCall Handler)} {t : WebEventBus Handler}
    (hRun : exec WebEventBus.next WebEventBus.start calls = some t) :
    Meets WebEventBus.next WebEventBus.EndsOwn WebEventBus.start calls ↔
      ∀ first s, first <+: calls → exec WebEventBus.next WebEventBus.start first = some s →
        s.DeliversExactly := by
  have hAny : Meets WebEventBus.next (fun (_ : WebEventBus Handler) _ => True)
      WebEventBus.start calls := Meets.of_forall fun _ _ _ => trivial
  exact meets_iff_observed (fun _ _ _ hTied _ hNext => hTied.next_iff hNext) hAny hRun
    WebEventBus.Tied.start WebEventBus.Tied.start.deliversExactly

private def twoTabs : List (BusCall Nat) :=
  [.subscribeWebEvent "receive-completed" 0, .subscribeWebEvent "receive-completed" 1,
    .unsubscribe 0, .unsubscribe 0, .subscribeWebEvent "receive-completed" 0]

theorem delivers_exactly_iff_twoTabs : ∃ t,
    exec WebEventBus.next WebEventBus.start twoTabs = some t ∧ t.DeliversExactly := by
  have hRun := Option.isSome_iff_exists.mp
    (show (exec WebEventBus.next WebEventBus.start twoTabs).isSome = true by decide)
  obtain ⟨t, hRun⟩ := hRun
  have hMeets : Meets WebEventBus.next WebEventBus.EndsOwn WebEventBus.start twoTabs := by decide
  exact ⟨t, hRun, (delivers_exactly_iff hRun).mp hMeets twoTabs t (List.prefix_refl _) hRun⟩

/-- A function called again after its set was dropped drops the set made since. -/
private def calledAgain : List (BusCall Nat) :=
  [.subscribeWebEvent "receive-completed" 0, .unsubscribe 0,
    .subscribeWebEvent "receive-completed" 1, .unsubscribe 0]

theorem calledAgain_misses : ∃ t,
    exec WebEventBus.next WebEventBus.start calledAgain = some t ∧ ¬t.DeliversExactly := by
  have hRun : ∃ t, exec WebEventBus.next WebEventBus.start calledAgain = some t ∧
      t.handlersOf "receive-completed" = [] ∧ t.Live "receive-completed" 1 := by decide
  obtain ⟨t, hRun, hNobody, hLive⟩ := hRun
  refine ⟨t, hRun, fun hExact => ?_⟩
  have hMem := ((WebEventBus.deliversExactly_iff.mp hExact "receive-completed").2 1).mpr hLive
  rw [hNobody] at hMem
  exact List.not_mem_nil hMem

end Runs
end AltSendme.Frontend
