import AltSendme.Native.PairingIdentity
import AltSendme.Native.KeptRecords

/-! In which order a task reaches the store and the allowlist. A remembered
peer is allowed next, a marked one is revoked next, and `forget_paired`
revokes right before it removes; every turn of an honest run keeps this. -/
namespace AltSendme

variable {Id : Type} [EndpointKeys Id]
open EndpointKeys (toStr fromStr)
open PairedDeviceStore (Kept)

/-- The peer tells its own id, and the store's file can be read and written. -/
def Task.Honest (task : Task Id) (input : Input) : Prop :=
  match task.todo, task.wait, input with
  | [], .pairing conn _, .message (.pairingInfo info)
  | [], .joinRead conn _, .message (.pairingInfo info) => info.endpointId = toStr conn.remote
  | .store _ _ :: _, _, .fail | .storeWrite _ _ _ :: _, _, .fail => False
  | _, _, _ => True

/-- What the honest peers and the disk promise of each step. -/
def HonestStep (c : NodeConfig Id) : NodeLabel Id → Prop
  | .turn t input => ∀ task ∈ c.tasks[t]?, task.Honest input
  | _ => True

section Order
/-! The order of the calls of one task, which every turn keeps. -/

/-- What a store call is for, and what follows it. -/
inductive StoreOp.Fits : StoreOp → StoreCont Id → List (Call Id) → Prop where
  | remember (device : PairedDevice) (remote : Id) (cont : StoreCont Id) (rest : List (Call Id))
      (hDevice : device.endpointId = toStr remote) (hCont : ∀ r paired, cont ≠ .unpaired r paired) :
      Fits (.remember device) cont (.allowPeer remote :: rest)
  | mark (remote : Id) (paired : Bool) (rest : List (Call Id)) :
      Fits (.markUnpairedRemotely (toStr remote)) (.unpaired remote paired) rest
  | forget (endpointId : String) (cont : StoreCont Id) (rest : List (Call Id)) :
      Fits (.forget endpointId) cont rest
  | other (op : StoreOp) (cont : StoreCont Id) (rest : List (Call Id)) (hOp : op.decides = false)
      (hCont : ∀ r paired, cont ≠ .unpaired r paired) : Fits op cont rest

/-- Calls that may stand anywhere. -/
def Call.isFree : Call Id → Bool
  | .store _ _ | .storeWrite _ _ _ | .rememberHost _ _ | .disallow _ => false
  | _ => true

/-- What a call may be followed by, and the list a write rests on. -/
inductive Call.Fits : Call Id → List (Call Id) → Prop where
  | read (op : StoreOp) (cont : StoreCont Id) (rest : List (Call Id)) (h : op.Fits cont rest) :
      Fits (.store op cont) rest
  | write (op : StoreOp) (base list : List PairedDevice) (cont : StoreCont Id)
      (rest : List (Call Id)) (h : op.Fits cont rest) (hBase : Kept Id base)
      (hWritten : (op.run String.toLowercase base).written = some list) :
      Fits (.storeWrite op base cont) rest
  | remembering (info : PairingInfo) (relayUrl : Option String) (remote : Id)
      (rest : List (Call Id)) (hInfo : info.endpointId = toStr remote) :
      Fits (.rememberHost info relayUrl) (.allowPeer remote :: rest)
  | forgetting (remote : Id) (endpointId : String) (cont : StoreCont Id) (rest : List (Call Id)) :
      Fits (.disallow remote) (.store (.forget endpointId) cont :: rest)
  | unpairing (remote : Id) (endpointId : String) (writer : PresenceWriter)
      (rest : List (Call Id)) : Fits (.disallow remote) (.setPresence endpointId writer :: rest)
  | free (call : Call Id) (rest : List (Call Id)) (hFree : call.isFree = true) : Fits call rest

def Ordered : List (Call Id) → Prop
  | [] => True
  | call :: rest => call.Fits rest ∧ Ordered rest

/-- Free calls may come before any ordered list. -/
theorem Ordered.append_free {pushed rest : List (Call Id)} (h : Ordered rest)
    (hFree : pushed.all Call.isFree = true) : Ordered (pushed ++ rest) := by
  induction pushed with
  | nil => exact h
  | cons call pushed ih =>
      rw [List.all_cons, Bool.and_eq_true] at hFree
      exact ⟨.free call _ hFree.1, ih hFree.2⟩

theorem Ordered.of_free {todo : List (Call Id)} (hFree : todo.all Call.isFree = true) :
    Ordered todo := by
  have hAppend : Ordered (todo ++ []) := .append_free trivial hFree
  rwa [List.append_nil] at hAppend

/-- A task is in order, and a pairing session holds its own peer's info. -/
structure Task.InOrder (task : Task Id) : Prop where
  calls : Ordered task.todo
  info : ∀ conn s info, task.wait = .pairing conn s → s.remoteInfo = some info →
    info.endpointId = toStr conn.remote

theorem Task.inOrder_returned (ok : Bool) : (Task.returned ok : Task Id).InOrder :=
  ⟨trivial, nofun⟩

/-- A task outside the pairing loop needs its calls in order and no more. -/
theorem Ordered.inOrder {todo : List (Call Id)} {wait : Wait Id} (h : Ordered todo)
    (hWait : ∀ conn s, wait ≠ .pairing conn s) : (⟨todo, wait⟩ : Task Id).InOrder :=
  ⟨h, fun conn s _ hSame => absurd hSame (hWait conn s)⟩

/-- Working an unpairing off keeps the order of the calls behind it. -/
theorem ordered_onUnpaired (remote : Id) (paired : Bool) (device : PairedDevice)
    {rest : List (Call Id)} (h : Ordered rest) : Ordered (onUnpaired remote paired device ++ rest) := by
  refine ⟨.unpairing remote _ _ _, ?_⟩
  exact Ordered.append_free h (by cases paired <;> rfl)

/-- An answer to Recognition keeps the order of the calls behind it. -/
theorem ordered_onRecognition (conn : Connection Id) (signature : String) {rest : List (Call Id)}
    (h : Ordered rest) : Ordered (onRecognition conn signature ++ rest) := by
  refine h.append_free ?_
  unfold onRecognition
  split <;> rfl

/-- An answer to Forget keeps the order of the calls behind it. -/
theorem ordered_onForget (conn : Connection Id) (signature : String) (paired : Bool)
    {rest : List (Call Id)} (h : Ordered rest) :
    Ordered (onForget conn signature paired ++ rest) := by
  unfold onForget
  split
  · exact ⟨.read _ _ _ (.mark conn.remote paired rest), h⟩
  · exact h

/-- Whatever the store answered, the calls that follow are in order. -/
theorem StoreCont.resume_inOrder {cont : StoreCont Id} {todo : List (Call Id)} {wait : Wait Id}
    (h : (⟨todo, wait⟩ : Task Id).InOrder) (reply : Except String (Option PairedDevice)) :
    (cont.resume todo wait reply).InOrder := by
  unfold resume
  split
  · exact h
  · exact h
  · exact Task.inOrder_returned false
  · next remote paired device =>
      exact ⟨ordered_onUnpaired remote paired device h.calls, h.info⟩
  · exact h

/-- A command starts with its calls in order. -/
theorem Command.Starts.inOrder {command : Command Id} {task : Task Id}
    (h : command.Starts task) : task.InOrder := by
  have hForget (endpointId : String) {rest : List (Call Id)} (hRest : rest.all Call.isFree = true) :
      Ordered (.store (.forget endpointId) .propagate :: rest) :=
    ⟨.read _ _ _ (.forget endpointId _ _), .of_free hRest⟩
  cases h with
  | forgetPaired endpointId => exact Ordered.inOrder ⟨.free _ _ rfl, hForget endpointId rfl⟩ nofun
  | forgetAllowed endpointId remote =>
      exact Ordered.inOrder
        ⟨.free _ _ rfl, .forgetting remote endpointId _ _, hForget endpointId rfl⟩ nofun
  | renamePaired endpointId displayName =>
      exact Ordered.inOrder ⟨.read _ _ _ (.other _ _ _ rfl nofun), trivial⟩ nofun
  | _ => exact Ordered.inOrder (.of_free rfl) nofun

/-- A new task has its calls in order. -/
theorem NewTask.inOrder {task : Task Id} (h : NewTask task) : task.InOrder := by
  cases h with
  | command command => exact command.starts.inOrder
  | _ => exact Ordered.inOrder (.of_free rfl) nofun

/-- The pairing loop answers in order, provided the peer names its own id. -/
theorem onPairingMessage_inOrder {conn : Connection Id} {s : PairingSession} {m : ControlMessage}
    (hTask : (⟨[], .pairing conn s⟩ : Task Id).InOrder)
    (hHonest : ∀ info, m = .pairingInfo info → info.endpointId = toStr conn.remote) :
    (onPairingMessage conn s m).InOrder := by
  cases m with
  | pairingInfo info =>
      unfold onPairingMessage
      dsimp only
      split
      · exact hTask
      · refine ⟨.of_free rfl, ?_⟩
        rintro other s' info' ⟨⟩ ⟨⟩
        exact hHonest info rfl
  | rememberVote sessionId vote =>
      refine ⟨.of_free rfl, ?_⟩
      rintro other s' info' ⟨⟩ hInfo
      exact hTask.info conn s info' rfl hInfo
  | invite | inviteResponse => exact ⟨.of_free rfl, hTask.info⟩
  | recognition signature =>
      exact ⟨ordered_onRecognition conn signature (.of_free rfl), hTask.info⟩
  | forget signature => exact ⟨ordered_onForget conn signature false (.of_free rfl), hTask.info⟩

/-- The paired loop answers in order. -/
theorem onPairedMessage_inOrder (conn : Connection Id) (m : ControlMessage) :
    (onPairedMessage conn m).InOrder := by
  have hWait (conn' : Connection Id) (s : PairingSession) :
      (onPairedMessage conn m).wait ≠ .pairing conn' s := by
    rcases (onPairedMessage_isAnswer conn m).2 with hWait | hWait <;> rw [hWait] <;> nofun
  refine Ordered.inOrder ?_ hWait
  cases m with
  | recognition signature =>
      have hCalls : Ordered (onRecognition conn signature ++ []) :=
        ordered_onRecognition conn signature trivial
      rwa [List.append_nil] at hCalls
  | forget signature =>
      dsimp only [onPairedMessage]
      split
      · exact ordered_onForget conn signature true (.of_free rfl)
      · trivial
  | _ => exact .of_free rfl

/-- The outbound loop answers in order. -/
theorem onOutboundMessage_inOrder (endpointId : String) (relayUrl : Option String)
    (conn : Connection Id) (m : ControlMessage) :
    (onOutboundMessage endpointId relayUrl conn m).InOrder := by
  have hWait (conn' : Connection Id) (s : PairingSession) :
      (onOutboundMessage endpointId relayUrl conn m).wait ≠ .pairing conn' s := by
    rw [(onOutboundMessage_isAnswer conn m endpointId relayUrl).2]
    nofun
  refine Ordered.inOrder ?_ hWait
  cases m with
  | recognition signature =>
      have hCalls : Ordered (onRecognition conn signature ++ []) :=
        ordered_onRecognition conn signature trivial
      rwa [List.append_nil] at hCalls
  | _ => exact .of_free rfl

/-- An honest host is allowed under the id it dialled. -/
theorem onHostInfo_inOrder {conn : Connection Id} {m : ControlMessage} (relayUrl : Option String)
    (hHonest : ∀ info, m = .pairingInfo info → info.endpointId = toStr conn.remote) :
    (onHostInfo conn relayUrl m).InOrder := by
  unfold onHostInfo
  split
  · next info =>
      split
      · exact Task.inOrder_returned false
      · next peerId hAccepted =>
          obtain ⟨hParsed, _⟩ := acceptedPeer_eq_some.mp hAccepted
          rw [hHonest info rfl, fromStr_toStr, Option.some.injEq] at hParsed
          refine Ordered.inOrder ⟨.remembering info relayUrl peerId _ ?_, .of_free rfl⟩ nofun
          rw [hHonest info rfl, hParsed]
  · exact Task.inOrder_returned false

/-- A task that wakes up to an honest message has its calls in order. -/
theorem Task.InOrder.of_resume {n : Node Id} {wait : Wait Id} {input : Input} {task' : Task Id}
    (hTask : (⟨[], wait⟩ : Task Id).InOrder) (hHonest : (⟨[], wait⟩ : Task Id).Honest input)
    (h : wait.resume n input = some task') : task'.InOrder := by
  cases wait <;> cases input <;>
    simp only [Wait.resume, reduceCtorEq, Option.some.injEq, Option.map_eq_some_iff] at h
  case pairing.message conn s m =>
    subst h
    refine onPairingMessage_inOrder hTask ?_
    rintro info rfl
    exact hHonest
  case pairing.closed conn s =>
    subst h
    unfold pairingLoopEnded
    refine Ordered.inOrder (.of_free ?_) fun conn' s' => ?_
    · split <;> rfl
    · split <;> simp
  case pairedRead.message conn m =>
    subst h
    exact onPairedMessage_inOrder conn m
  case outboundRead.message endpointId relayUrl conn m =>
    subst h
    exact onOutboundMessage_inOrder endpointId relayUrl conn m
  case joinRead.message conn relayUrl m =>
    subst h
    refine onHostInfo_inOrder relayUrl ?_
    rintro info rfl
    exact hHonest
  case acceptBi.go conn now =>
    subst h
    refine ⟨.of_free rfl, ?_⟩
    rintro other s info ⟨⟩ hNone
    cases hNone
  case connecting.connected | notifyWait.go =>
    obtain ⟨_, _, rfl⟩ := h
    exact Ordered.inOrder trivial (by simp)
  case supervising.go =>
    split at h
    · cases h
      exact Task.inOrder_returned true
    · cases h
      exact Ordered.inOrder (.of_free rfl) (by simp)
  case notifyConnect.connected fallbackPresence _ _ _ =>
    subst h
    cases fallbackPresence <;> exact Ordered.inOrder (.of_free rfl) (by simp)
  all_goals
    subst h
    exact Ordered.inOrder (.of_free rfl) (by simp)

end Order

variable [DecidableEq Id]

section Calls
variable {n n' : Node Id} {self fresh : Nat} {wait : Wait Id} {rest : List (Call Id)}
  {input : Input} {task task' : Task Id} {spawned : List (Task Id)}

/-- A store call reads the file; it goes on to write, or is over. -/
theorem Call.exec_store {op : StoreOp} {cont : StoreCont Id}
    (h : (Call.store op cont).exec n fresh wait rest input = some (n', task', spawned)) :
    n' = n ∧
      ((∃ list, (op.run String.toLowercase n.file).written = some list ∧
          task' = ⟨.storeWrite op n.file cont :: rest, wait⟩) ∨
        ∃ reply, ((op.run String.toLowercase n.file).written = none ∨ input = .fail) ∧
          task' = cont.resume rest wait reply) := by
  cases input <;> simp only [exec, reduceCtorEq] at h
  case go now =>
    cases hWritten : (op.run String.toLowercase n.file).written with
    | some list =>
        simp only [hWritten, Option.some.injEq, Prod.mk.injEq] at h
        exact ⟨h.1.symm, Or.inl ⟨list, rfl, h.2.1.symm⟩⟩
    | none =>
        simp only [hWritten, Option.some.injEq, Prod.mk.injEq] at h
        exact ⟨h.1.symm, Or.inr ⟨_, Or.inl rfl, h.2.1.symm⟩⟩
  case fail =>
    simp only [Option.some.injEq, Prod.mk.injEq] at h
    exact ⟨h.1.symm, Or.inr ⟨_, Or.inr rfl, h.2.1.symm⟩⟩

/-- A write that does not fail replaces the file and answers its caller. -/
theorem Call.exec_storeWrite {op : StoreOp} {base : List PairedDevice} {cont : StoreCont Id}
    (hInput : input ≠ .fail)
    (h : (Call.storeWrite op base cont).exec n fresh wait rest input = some (n', task', spawned)) :
    n' = { n with file := op.apply String.toLowercase base } ∧
      task' = cont.resume rest wait (op.run String.toLowercase base).reply := by
  cases input <;> simp only [exec, reduceCtorEq] at h
  case go now =>
    simp only [Option.some.injEq, Prod.mk.injEq] at h
    exact ⟨h.1.symm, h.2.1.symm⟩
  case fail => exact absurd rfl hInput

/-- One call leaves the calls behind it in order. -/
theorem Task.InOrder.of_exec {call : Call Id} (hTask : (⟨call :: rest, wait⟩ : Task Id).InOrder)
    (hFile : Kept Id n.file)
    (h : call.exec n fresh wait rest input = some (n', task', spawned)) : task'.InOrder := by
  obtain ⟨⟨hFits, hRest⟩, hInfo⟩ := hTask
  have hAfter : (⟨rest, wait⟩ : Task Id).InOrder := ⟨hRest, hInfo⟩
  cases Call.exec_moves h with
  | onward => exact hAfter
  | stopped _ ok => exact Task.inOrder_returned ok
  | gateRead conn => exact ⟨⟨.free _ _ rfl, hRest⟩, hInfo⟩
  | gatePaired conn => exact Ordered.inOrder (hRest.append_free rfl) nofun
  | gatePassed conn =>
      refine ⟨hRest, ?_⟩
      rintro other s info ⟨⟩ hNone
  | completed conn s info now hWait hSome =>
      refine Ordered.inOrder ⟨.read _ _ _ (.remember _ conn.remote _ _ ?_ nofun), .of_free rfl⟩ nofun
      exact hInfo conn s info hWait hSome
  | invited conn other s invite hWait =>
      refine ⟨⟨.free _ _ rfl, .free _ _ rfl, hRest⟩, ?_⟩
      rintro session s' info ⟨⟩ hSome
      exact hInfo other s info hWait hSome
  | storeRead op cont =>
      cases hFits with
      | read _ _ _ hOp =>
          rcases (Call.exec_store h).2 with ⟨list, hWritten, _⟩ | ⟨reply, _, hNext⟩
          · exact ⟨⟨.write op n.file list cont rest hOp hFile hWritten, hRest⟩, hInfo⟩
          · rw [hNext]
            exact StoreCont.resume_inOrder hAfter reply
      | free _ _ hFree => cases hFree
  | storeKept op cont reply => exact StoreCont.resume_inOrder hAfter reply
  | storeWritten op base cont reply => exact StoreCont.resume_inOrder hAfter reply
  | touching endpointId now => exact ⟨⟨.read _ _ _ (.other _ _ _ rfl nofun), hRest⟩, hInfo⟩
  | remembering info relayUrl now =>
      cases hFits with
      | remembering _ _ remote rest hOwn =>
          exact ⟨⟨.read _ _ _ (.remember _ remote _ _ hOwn nofun), hRest⟩, hInfo⟩
      | free _ _ hFree => cases hFree
  | connecting => exact Ordered.inOrder hRest nofun
  | _ => exact ⟨⟨.free _ _ rfl, hRest⟩, hInfo⟩

/-- One turn keeps the calls in order. -/
theorem Task.InOrder.of_turn (hTask : task.InOrder) (hHonest : task.Honest input)
    (hFile : Kept Id n.file)
    (h : task.turn n self fresh input = some (n', task', spawned)) : task'.InOrder := by
  rcases Task.turn_eq_some h with ⟨_, _, _, rfl, _⟩ | ⟨hTodo, _, _, hNext⟩ |
    ⟨call, rest, hTodo, hExec⟩
  · exact Task.inOrder_returned false
  · obtain ⟨todo, wait⟩ := task
    obtain rfl : todo = [] := hTodo
    exact hTask.of_resume hHonest hNext
  · obtain ⟨todo, wait⟩ := task
    obtain rfl : todo = call :: rest := hTodo
    exact hTask.of_exec hFile hExec

/-- The file is only ever replaced by what a call made of a kept list. -/
theorem Task.InOrder.kept_of_turn (hTask : task.InOrder) (hFile : Kept Id n.file)
    (hTurn : task.turn n self fresh input = some (n', task', spawned)) : Kept Id n'.file := by
  rcases Task.turn_changes hTurn with rfl | ⟨call, rest, hTodo, hChanges, _⟩
  · exact hFile
  · have hCalls := hTask.calls
    rw [hTodo] at hCalls
    cases hChanges with
    | fileWritten op base cont =>
        cases hCalls.1 with
        | write _ _ _ _ _ hOp hBase =>
            refine StoreOp.kept_apply hBase ?_
            rintro device rfl
            cases hOp with
            | remember _ remote _ _ hDevice => exact ⟨remote, hDevice⟩
            | other _ _ _ hPlain => cases hPlain
        | free _ _ hFree => cases hFree
    | presence endpointId writer =>
        rw [n.setPresence_file]
        exact hFile
    | _ => exact hFile

end Calls

end AltSendme
