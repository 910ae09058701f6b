import AltSendme.Execution.Run
import AltSendme.Relay.RelayMode

/-! `reconfigure_relay` takes the old runtime down before the new one exists.
The mode it records is what the next call compares its own mode with. -/
namespace AltSendme
open Execution

/-- `iroh::endpoint::RelayMode`. A custom one is the map of its relays. -/
inductive RelayMode where
  | disabled
  | default
  | custom (urls : List RelayUrl) (authToken : Option String)
  deriving DecidableEq, Repr

/-- `From<RelayModeOption>` -/
def RelayModeOption.into : RelayModeOption → RelayMode
  | .disabled => .disabled
  | .default => .default
  | .custom urls authToken => .custom urls (authToken.filter (· ≠ ""))

/-- The endpoint with its router, and the mode it was bound with. -/
structure NodeRuntime where
  relayMode : RelayMode
  isOpen : Bool
  deriving DecidableEq, Repr

/-- What the pairing window has set, and the handle of its expiry. -/
structure PairingHost where
  accessOpen : Bool
  isOpen : Bool
  persistent : Bool
  expireTask : Option Nat
  deriving DecidableEq, Repr

/-- `NodeService`, as far as a relay change goes. -/
structure NodeService where
  runtime : NodeRuntime
  relayMode : RelayMode
  pairingHost : PairingHost
  networkReady : Bool
  events : List String
  refreshes : Nat
  deriving DecidableEq, Repr

/-- How `router.shutdown` ends. A handler that panicked fails it, before or
after the endpoint was closed. -/
inductive RouterShutdown where
  | done
  | failed (closed : Bool)
  deriving DecidableEq, Repr

/-- What one call meets outside: the shutdown, and whether the endpoint of
`build_runtime` binds. -/
structure RuntimeAnswers where
  shutdown : RouterShutdown
  binds : Bool
  deriving DecidableEq, Repr

inductive RelayChangeError where
  | shutdown
  | bind
  deriving DecidableEq, Repr

namespace NodeService

def emit (node : NodeService) (event : String) : NodeService :=
  { node with events := node.events ++ [event] }

/-- The handle that is taken out is aborted. -/
def stopPairingHost (node : NodeService) : NodeService :=
  { node with pairingHost := ⟨false, false, false, none⟩ }

/-- Without relays the network counts as ready at once. -/
def buildRuntime (node : NodeService) (relayMode : RelayMode) (binds : Bool) :
    Option (NodeService × NodeRuntime) :=
  if binds then
    let node :=
      if relayMode = .disabled then
        { node with networkReady := true }.emit "device-node-network-ready"
      else node
    some (node, ⟨relayMode, true⟩)
  else none

/-- From `stop_pairing_host` on: the part no longer decided by the recorded mode. -/
def replaceRuntime (node : NodeService) (relayMode : RelayMode) (a : RuntimeAnswers) :
    NodeService × Except RelayChangeError Unit :=
  let warming := { node.stopPairingHost with networkReady := false }.emit
    "device-node-network-warming"
  match a.shutdown with
  | .failed closed =>
      ({ warming with runtime := { node.runtime with isOpen := node.runtime.isOpen && !closed } },
        .error .shutdown)
  | .done =>
      let down := { warming with runtime := { node.runtime with isOpen := false } }
      match down.buildRuntime relayMode a.binds with
      | none => (down, .error .bind)
      | some (built, runtime) =>
          ({ built with runtime, relayMode, refreshes := built.refreshes + 1 }, .ok ())

variable (debug : RelayMode → String)

/-- Modes are compared by their `Debug` text. -/
def reconfigureRelay (node : NodeService) (relayMode : RelayMode) (a : RuntimeAnswers) :
    NodeService × Except RelayChangeError Unit :=
  if debug node.relayMode = debug relayMode then (node, .ok ())
  else node.replaceRuntime relayMode a

/-- One call after another. -/
def relayStep (node : NodeService) (call : RelayMode × RuntimeAnswers) : Option NodeService :=
  some (node.reconfigureRelay debug call.1 call.2).1

/-- The node holds an open runtime for the mode it has recorded. -/
def Usable (node : NodeService) : Prop :=
  node.runtime.isOpen = true ∧ node.runtime.relayMode = node.relayMode

instance (node : NodeService) : Decidable node.Usable := inferInstanceAs (Decidable (_ ∧ _))

/-- Whatever mode is asked for next, the recorded one included, the call builds
a runtime for it when nothing outside fails. -/
def Rebuilds (node : NodeService) : Prop :=
  ∀ relayMode, (node.reconfigureRelay debug relayMode ⟨.done, true⟩).1.runtime = ⟨relayMode, true⟩

/-- The call skips, or leaves the old runtime open, or builds the new one. -/
def LeavesRuntime (node : NodeService) (call : RelayMode × RuntimeAnswers) : Prop :=
  debug node.relayMode = debug call.1 ∨ call.2.shutdown = .failed false ∨
    call.2.shutdown = .done ∧ call.2.binds = true

instance (node : NodeService) (call : RelayMode × RuntimeAnswers) :
    Decidable (node.LeavesRuntime debug call) := inferInstanceAs (Decidable (_ ∨ _))

section
variable {debug : RelayMode → String} {node : NodeService} {relayMode : RelayMode}
  {a : RuntimeAnswers}

/-- The three ways through a replacement. -/
theorem replaceRuntime_cases (node : NodeService) (relayMode : RelayMode) (a : RuntimeAnswers) :
    (∃ closed node', a.shutdown = .failed closed ∧
      node.replaceRuntime relayMode a = (node', .error .shutdown) ∧
      node'.runtime = ⟨node.runtime.relayMode, node.runtime.isOpen && !closed⟩ ∧
      node'.relayMode = node.relayMode) ∨
    (∃ node', a.shutdown = .done ∧ a.binds = false ∧
      node.replaceRuntime relayMode a = (node', .error .bind) ∧
      node'.runtime = ⟨node.runtime.relayMode, false⟩ ∧ node'.relayMode = node.relayMode) ∨
    (∃ node', a.shutdown = .done ∧ a.binds = true ∧
      node.replaceRuntime relayMode a = (node', .ok ()) ∧
      node'.runtime = ⟨relayMode, true⟩ ∧ node'.relayMode = relayMode) := by
  obtain ⟨shutdown, binds⟩ := a
  cases shutdown with
  | failed closed => exact .inl ⟨closed, _, rfl, rfl, rfl, rfl⟩
  | done =>
      cases binds with
      | false => exact .inr (.inl ⟨_, rfl, rfl, rfl, rfl, rfl⟩)
      | true => exact .inr (.inr ⟨_, rfl, rfl, rfl, rfl, rfl⟩)

/-- Exactly the calls after which the node is usable. -/
theorem usable_reconfigureRelay :
    (node.reconfigureRelay debug relayMode a).1.Usable ↔
      if debug node.relayMode = debug relayMode then node.Usable
      else a.shutdown = .failed false ∧ node.Usable ∨ a.shutdown = .done ∧ a.binds = true := by
  rw [reconfigureRelay]
  split
  · rfl
  · rcases replaceRuntime_cases node relayMode a with
      ⟨closed, node', hShutdown, hResult, hRuntime, hMode⟩ |
        ⟨node', hShutdown, hBinds, hResult, hRuntime, hMode⟩ |
        ⟨node', hShutdown, hBinds, hResult, hRuntime, hMode⟩
    · rw [hResult, Usable, Usable, hRuntime, hMode, hShutdown]
      cases closed <;> simp
    · rw [hResult, Usable, hRuntime, hShutdown, hBinds]
      simp
    · rw [hResult, Usable, hRuntime, hMode, hShutdown, hBinds]
      simp

/-- The recorded mode is never rebuilt, so a node that always rebuilds is usable. -/
theorem Rebuilds.usable (h : node.Rebuilds debug) : node.Usable := by
  have hSame := h node.relayMode
  rw [reconfigureRelay, if_pos rfl] at hSame
  rw [Usable, hSame]
  exact ⟨rfl, rfl⟩

theorem usable_step {call : RelayMode × RuntimeAnswers} {node' : NodeService}
    (h : node.Usable) (hLeaves : node.LeavesRuntime debug call)
    (hStep : relayStep debug node call = some node') : node'.Usable := by
  obtain rfl := Option.some.inj hStep
  rw [usable_reconfigureRelay]
  split
  · exact h
  · next hOther =>
    rcases hLeaves with hSame | hOpen | hBuilt
    · exact absurd hSame hOther
    · exact .inl ⟨hOpen, h⟩
    · exact .inr hBuilt

end

/-- After a call that failed the node is usable, or rebuilds whatever comes
next, exactly when the failure left the runtime of a usable node open. In a run
of calls none of which loses the runtime the node is usable throughout. -/
theorem relay_change_leaves_usable (debug : RelayMode → String) (node : NodeService) :
    (∀ relayMode a, (node.reconfigureRelay debug relayMode a).2.isOk = false →
      ((node.reconfigureRelay debug relayMode a).1.Usable ∨
          (node.reconfigureRelay debug relayMode a).1.Rebuilds debug ↔
        a.shutdown = .failed false ∧ node.Usable)) ∧
      ∀ calls node', node.Usable → exec (relayStep debug) node calls = some node' →
        Meets (relayStep debug) (LeavesRuntime debug) node calls → node'.Usable := by
  refine ⟨?_, ?_⟩
  · intro relayMode a hFailed
    have hReplaced : debug node.relayMode ≠ debug relayMode := by
      intro hSame
      rw [reconfigureRelay, if_pos hSame] at hFailed
      cases hFailed
    have hNotBuilt : ¬(a.shutdown = .done ∧ a.binds = true) := by
      rintro ⟨hShutdown, hBinds⟩
      rw [reconfigureRelay, if_neg hReplaced, replaceRuntime, hShutdown, hBinds] at hFailed
      cases hFailed
    rw [or_iff_left_of_imp Rebuilds.usable, usable_reconfigureRelay, if_neg hReplaced]
    exact or_iff_left hNotBuilt
  · intro calls node' hUsable hRun hMeets
    exact hMeets.invariant (fun _ _ _ h hLeaves hStep => usable_step h hLeaves hStep) hRun hUsable

section
private def exampleDebug : RelayMode → String
  | .disabled => "Disabled"
  | .default => "Default"
  | .custom _ _ => "Custom"

private def openNode : NodeService :=
  ⟨⟨.disabled, true⟩, .disabled, ⟨false, false, false, none⟩, true, [], 0⟩

/-- One change succeeds, and the next fails before the endpoint is closed. -/
private def keptOpen : List (RelayMode × RuntimeAnswers) :=
  [(.default, ⟨.done, true⟩), (.disabled, ⟨.failed false, true⟩)]

theorem relay_change_leaves_usable_keptOpen : ∃ node',
    exec (relayStep exampleDebug) openNode keptOpen = some node' ∧ node'.Usable := by
  have hMeets : Meets (relayStep exampleDebug) (LeavesRuntime exampleDebug) openNode keptOpen := by
    decide
  exact ⟨_, rfl, (relay_change_leaves_usable exampleDebug openNode).2 keptOpen _ (by decide) rfl
    hMeets⟩

/-- The endpoint of the new mode does not bind; the change back is skipped. -/
theorem failed_relay_change_keeps_node_closed :
    (openNode.reconfigureRelay exampleDebug .default ⟨.done, false⟩).2 = .error .bind ∧
      (openNode.reconfigureRelay exampleDebug .default ⟨.done, false⟩).1.runtime.isOpen = false ∧
      (openNode.reconfigureRelay exampleDebug .default ⟨.done, false⟩).1.reconfigureRelay
          exampleDebug .disabled ⟨.done, true⟩ =
        ((openNode.reconfigureRelay exampleDebug .default ⟨.done, false⟩).1, .ok ()) := by
  decide

end

end NodeService

end AltSendme
