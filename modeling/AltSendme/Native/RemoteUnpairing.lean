import AltSendme.Native.ForgetNotices
import AltSendme.Native.NoticeDelivery

/-! Forgetting, from user to user. A device is told to forget another by its user,
tells that one so once, and is marked there once; what has been ordered and not yet
shown is held by a task of either side or under way between them. -/
namespace AltSendme

variable {Id : Type} [DecidableEq Id] [EndpointKeys Id]
open EndpointKeys (toStr fromStr)
open Notice (countP_eq_zero)

namespace Unpairing
variable (sender receiver : Id)

/-- The user of `sender` has it forget `receiver`. -/
def isOrdered : ForgettingLabel Id → Bool
  | .net (.call device (.forgetPaired endpointId)) =>
      device = sender ∧ fromStr endpointId = some receiver
  | _ => false

/-- The last call of a `forget_paired` that will tell `receiver`. -/
def isLeaving : Call Id → Bool
  | .emit (.deviceUnpaired endpointId none _) => fromStr endpointId = some receiver
  | _ => false

end Unpairing

/-- A task that is still to write a `Forget` to `receiver`. -/
def ForgetStage.isFor (receiver : Id) : ForgetStage Id → Bool
  | .connecting remote | .opening remote _ | .writing remote _ => remote = receiver
  | .closing | .ended => false

namespace Unpairing
variable (sender receiver : Id)

def isUnderWay (letter : Letter Id) : Bool :=
  letter.sender = sender ∧ letter.receiver = receiver ∧ letter.message.isForget

/-- The event tells the user that `sender` has forgotten this device. -/
def isShown : NodeEvent → Bool
  | .deviceUnpaired endpointId (some _) _ => endpointId.toLowercase = toStr sender
  | _ => false

/-- A call that marks the record of `sender`, or tells that it is marked. -/
def isMarking : Call Id → Bool
  | .store op cont | .storeWrite op _ cont =>
      (op.marks || cont.unpairs) && op.endpointId.toLowercase = toStr sender
  | .emit event => isShown sender event
  | _ => false

def leaving (task : Task Id) : Nat := task.todo.countP (isLeaving receiver)

def marking (task : Task Id) : Nat := task.todo.countP (isMarking sender)

/-- What `sender` has been ordered to tell `receiver` and is not used up. -/
def outstanding (w : ForgettingNetwork Id) : Nat :=
  (w.net.device sender).tally (fun _ => leaving receiver) +
    (w.forgetting sender).countP (ForgetStage.isFor receiver) +
    w.net.inFlight.countP (isUnderWay sender receiver) +
    (w.net.device receiver).tally (fun _ => marking sender) +
    (w.net.shown receiver).countP (isShown sender)

variable {sender receiver}

theorem isLeaving_of_forgetless {c : Call Id} (h : c.isForgetless = true) :
    isLeaving receiver c = false := by
  unfold isLeaving
  split
  · cases h
  · rfl

omit [DecidableEq Id] in
theorem isMarking_of_forgetless {c : Call Id} (h : c.isForgetless = true) :
    isMarking sender c = false := by
  unfold isMarking
  split
  · next op cont =>
      have hNone : (op.marks || cont.unpairs) = false := by simpa [Call.isForgetless] using h
      rw [hNone, Bool.false_and]
  · next op base cont =>
      have hNone : (op.marks || cont.unpairs) = false := by simpa [Call.isForgetless] using h
      rw [hNone, Bool.false_and]
  · next event =>
      cases event with
      | deviceUnpaired => cases h
      | _ => rfl
  · rfl

theorem countP_leaving {todo : List (Call Id)} (h : todo.all Call.isForgetless = true) :
    todo.countP (isLeaving receiver) = 0 :=
  countP_eq_zero fun c hc => isLeaving_of_forgetless (List.all_eq_true.mp h c hc)

omit [DecidableEq Id] in
theorem countP_marking {todo : List (Call Id)} (h : todo.all Call.isForgetless = true) :
    todo.countP (isMarking sender) = 0 :=
  countP_eq_zero fun c hc => isMarking_of_forgetless (List.all_eq_true.mp h c hc)

/-! What a message leads to. -/

variable {n n' : Node Id} {self fresh : Nat} {task task' : Task Id} {wait : Wait Id}
  {rest : List (Call Id)} {call : Call Id} {input : Input} {spawned : List (Task Id)}

/-- A task that wakes up has no unpairing to tell. -/
theorem leaving_of_resume (hWait : wait.Mute) (h : wait.resume n input = some task') :
    leaving receiver task' = 0 := by
  rcases hWait.answered h with hNone | ⟨remote, _, hAnswered⟩
  · exact countP_leaving hNone
  · obtain ⟨todo, wait'⟩ := task'
    cases hAnswered with
    | other _ _ hNone => exact countP_leaving hNone
    | forgotten signature paired todo hNone =>
        rw [leaving, List.countP_cons_of_neg (by simp [isLeaving])]
        exact countP_leaving hNone

/-- What an answer makes a task mark, it has taken from the network. -/
theorem marking_of_resume {device : Id} {todo : List (Call Id)} (hWait : wait.Mute)
    (h : wait.resume n input = some task') :
    marking sender task' ≤
      (Network.heard device ⟨todo, wait⟩ input).countP (isUnderWay sender device) := by
  rcases hWait.answered h with hNone | ⟨remote, hHears, hAnswered⟩
  · rw [marking, countP_marking hNone]
    exact Nat.zero_le _
  · obtain ⟨calls, wait'⟩ := task'
    cases hAnswered with
    | other _ _ hNone =>
        rw [marking, countP_marking hNone]
        exact Nat.zero_le _
    | forgotten signature paired rest hNone =>
        have hHeard : Network.heard device (⟨todo, wait⟩ : Task Id)
            (.message (.forget signature)) = [⟨remote, device, .forget signature⟩] := by
          simp [Network.heard, hHears, Input.heard]
        rw [marking, List.countP_cons, countP_marking hNone, hHeard, List.countP_singleton]
        by_cases hSame : remote = sender
        · simp [isMarking, isUnderWay, hSame, StoreOp.marks, StoreOp.endpointId,
            ControlMessage.isForget]
        · simp [isMarking, isUnderWay, hSame, StoreOp.marks, StoreOp.endpointId]

/-! What a call does. -/

omit [EndpointKeys Id] [DecidableEq Id] in
/-- The record that a store call answers with is of the id it was asked for. -/
theorem endpointId_of_reply {op : StoreOp} {file : List PairedDevice} {d : PairedDevice}
    (h : (op.run String.toLowercase file).reply = .ok (some d)) :
    d.endpointId.toLowercase = op.endpointId.toLowercase := by
  have hGet (file : List PairedDevice) (endpointId : String) (found : PairedDevice)
      (hFound : PairedDeviceStore.get String.toLowercase file endpointId = some found) :
      found.endpointId.toLowercase = endpointId.toLowercase :=
    (PairedDeviceStore.get_eq_some hFound).2
  cases op with
  | remember device => exact hGet _ _ _ (Except.ok.inj h)
  | forget endpointId => cases h
  | rename endpointId displayName =>
      rw [StoreOp.run] at h
      split at h
      · cases h
      · next found hFound =>
          obtain rfl := Option.some.inj (Except.ok.inj h)
          exact hGet file endpointId found hFound
  | touch endpointId lastSeenAt =>
      rw [StoreOp.run] at h
      split at h
      · cases h
      · cases h
  | markUnpairedRemotely endpointId =>
      rw [StoreOp.run] at h
      split at h
      · cases h
      · next found hFound =>
          obtain rfl := Option.some.inj (Except.ok.inj h)
          exact hGet file endpointId found hFound

/-- What the caller of the store does next is to return, to go on, or to unpair. -/
theorem resume_counts {op : StoreOp} {cont : StoreCont Id} {todo : List (Call Id)}
    {reply : Except String (Option PairedDevice)}
    (hReply : ∀ d, reply = .ok (some d) → d.endpointId.toLowercase = op.endpointId.toLowercase) :
    leaving receiver (cont.resume todo wait reply) ≤ todo.countP (isLeaving receiver) ∧
      marking sender (cont.resume todo wait reply) ≤ todo.countP (isMarking sender) +
        if (isMarking sender (.store op cont : Call Id)) then 1 else 0 := by
  unfold StoreCont.resume
  split
  · exact ⟨Nat.le_refl _, Nat.le_add_right _ _⟩
  · exact ⟨Nat.le_refl _, Nat.le_add_right _ _⟩
  · exact ⟨Nat.zero_le _, Nat.zero_le _⟩
  · next remote paired device =>
      have hSame := hReply device rfl
      have hForget : (if paired then managerForget (toStr remote) else [] :
          List (Call Id)).all Call.isForgetless = true := by
        cases paired <;> rfl
      constructor
      · simp only [leaving, onUnpaired, List.countP_append, countP_leaving hForget]
        simp [isLeaving]
      · simp only [marking, onUnpaired, List.countP_append, countP_marking hForget]
        simp [isMarking, isShown, StoreCont.unpairs, hSame, List.countP_cons]
        omega
  · exact ⟨Nat.le_refl _, Nat.le_add_right _ _⟩

/-- A store call reads the file, and then writes it or answers. -/
theorem exec_store_cases {op : StoreOp} {cont : StoreCont Id}
    (h : (Call.store op cont).exec n fresh wait rest input = some (n', task', spawned)) :
    n' = n ∧ (task' = ⟨.storeWrite op n.file cont :: rest, wait⟩ ∨
      ∃ reply, task' = cont.resume rest wait reply ∧
        ∀ d, reply = .ok (some d) → d.endpointId.toLowercase = op.endpointId.toLowercase) := by
  cases input <;> simp only [Call.exec, reduceCtorEq] at h
  case go now =>
    split at h
    · simp only [Option.some.injEq, Prod.mk.injEq] at h
      exact ⟨h.1.symm, Or.inl h.2.1.symm⟩
    · simp only [Option.some.injEq, Prod.mk.injEq] at h
      exact ⟨h.1.symm, Or.inr ⟨_, h.2.1.symm, fun d hReply => endpointId_of_reply hReply⟩⟩
  case fail =>
    simp only [Option.some.injEq, Prod.mk.injEq] at h
    exact ⟨h.1.symm, Or.inr ⟨_, h.2.1.symm, fun d hReply => (by cases hReply)⟩⟩

/-- A store's second half reports nothing, or works an unpairing off. -/
theorem exec_storeWrite_cases {op : StoreOp} {base : List PairedDevice} {cont : StoreCont Id}
    (h : (Call.storeWrite op base cont).exec n fresh wait rest input =
      some (n', task', spawned)) :
    n'.events = n.events ∧ ∃ reply, task' = cont.resume rest wait reply ∧
      ∀ d, reply = .ok (some d) → d.endpointId.toLowercase = op.endpointId.toLowercase := by
  cases input <;> simp only [Call.exec, reduceCtorEq] at h
  case go now =>
    simp only [Option.some.injEq, Prod.mk.injEq] at h
    obtain ⟨rfl, hNext, -⟩ := h
    exact ⟨rfl, _, hNext.symm, fun d hReply => endpointId_of_reply hReply⟩
  case fail =>
    simp only [Option.some.injEq, Prod.mk.injEq] at h
    obtain ⟨rfl, hNext, -⟩ := h
    exact ⟨rfl, _, hNext.symm, fun d hReply => (by cases hReply)⟩

/-- A call of the paired-device store. -/
def isStore : Call Id → Bool
  | .store _ _ | .storeWrite _ _ _ => true
  | _ => false

omit [DecidableEq Id] in
theorem forgetless_of_pushes {c : Call Id} (h : call.Pushes n fresh c)
    (hStore : isStore call = false) : c.isForgetless = true := by
  cases h with
  | registered conn isOpen c h =>
      simp only [registerInbound, setSession, List.mem_cons, List.not_mem_nil, or_false] at h
      rcases h with rfl | rfl | rfl | rfl <;> rfl
  | unpairedKept | unpaired | write => cases hStore
  | _ => rfl

/-- Working off any other call adds neither an unpairing nor a marking. -/
theorem counts_of_moves (h : call.Moves n fresh wait rest task') (hStore : isStore call = false) :
    leaving receiver task' ≤ rest.countP (isLeaving receiver) ∧
      marking sender task' ≤ rest.countP (isMarking sender) := by
  unfold leaving marking
  rcases h.pushed with hNone | ⟨conn, s, info, now, _, _, rfl⟩ | ⟨pushed, hTodo, hPushed⟩
  · rw [hNone]
    exact ⟨Nat.zero_le _, Nat.zero_le _⟩
  · have hNone : (pairingCompleted conn info now n.homeRelayUrl).todo.all Call.isForgetless =
        true := rfl
    rw [countP_leaving hNone, countP_marking hNone]
    exact ⟨Nat.zero_le _, Nat.zero_le _⟩
  · have hNone : pushed.all Call.isForgetless = true :=
      List.all_eq_true.mpr fun c hc => forgetless_of_pushes (hPushed c hc) hStore
    rw [hTodo, List.countP_append, List.countP_append, countP_leaving hNone, countP_marking hNone]
    exact ⟨Nat.le_of_eq (Nat.zero_add _), Nat.le_of_eq (Nat.zero_add _)⟩

/-- One call shows an unpairing at most once, and only where it marks one. -/
theorem shown_of_changes (h : call.Changes n fresh n') (hStore : isStore call = false) :
    (n'.events.drop n.events.length).countP (isShown sender) ≤
      if isMarking sender call then 1 else 0 := by
  have hKept (m : Node Id) (hSame : m.events = n.events) :
      (m.events.drop n.events.length).countP (isShown sender) ≤
        if isMarking sender call then 1 else 0 := by
    rw [hSame, List.drop_length]
    exact Nat.zero_le _
  cases h with
  | emitted event => cases hShown : isShown sender event <;> simp [Node.emit, isMarking, hShown]
  | answered remote response displayName => simp [Node.emit, isShown]
  | presence endpointId writer =>
      rcases n.setPresence_events endpointId writer.online with hSame | ⟨lastSeenAt, hNew⟩
      · exact hKept _ hSame
      · rw [hNew, List.drop_left]
        exact Nat.zero_le _
  | fileWritten => cases hStore
  | _ => exact hKept _ rfl

/-- What a call marks or tells, or leaves its task to mark or tell, the task was to. -/
theorem counts_of_exec (h : call.exec n fresh wait rest input = some (n', task', spawned)) :
    leaving receiver task' ≤ rest.countP (isLeaving receiver) ∧
      marking sender task' + (n'.events.drop n.events.length).countP (isShown sender) ≤
        marking sender ⟨call :: rest, wait⟩ := by
  have hMarking : marking sender ⟨call :: rest, wait⟩ =
      rest.countP (isMarking sender) + if isMarking sender call then 1 else 0 := List.countP_cons
  rw [hMarking]
  cases hStore : isStore call with
  | false =>
      obtain ⟨hLeft, hMarked⟩ := @counts_of_moves _ _ _ sender receiver _ _ _ _ _ _
        (Call.exec_moves h) hStore
      exact ⟨hLeft, Nat.add_le_add hMarked (shown_of_changes (Call.exec_changes h) hStore)⟩
  | true =>
      cases call with
      | store op cont =>
          obtain ⟨rfl, rfl | ⟨reply, rfl, hReply⟩⟩ := exec_store_cases h
          · rw [List.drop_length]
            refine ⟨?_, Nat.le_of_eq ?_⟩
            · rw [leaving, List.countP_cons_of_neg (by simp [isLeaving])]
            · rw [marking, List.countP_cons]
              rfl
          · rw [List.drop_length]
            exact resume_counts hReply
      | storeWrite op base cont =>
          obtain ⟨hSame, reply, rfl, hReply⟩ := exec_storeWrite_cases h
          rw [hSame, List.drop_length]
          exact resume_counts hReply
      | _ => cases hStore

/-! One turn of one task. -/

variable (receiver) in
/-- What a turn still has to tell, with what it begins, is at most what it had. -/
theorem leaving_of_turn (hTask : task.Mute)
    (h : task.turn n self fresh input = some (n', task', spawned)) :
    leaving receiver task' + ((task.forgets input).toList.map ForgetStage.start).countP
        (ForgetStage.isFor receiver) ≤ leaving receiver task := by
  obtain ⟨todo, wait⟩ := task
  rcases Task.turn_eq_some h with ⟨rfl, _, _, rfl, _⟩ | ⟨hTodo, _, _, hNext⟩ |
    ⟨call, rest, hTodo, hExec⟩
  · have hNone : (⟨todo, wait⟩ : Task Id).forgets .cancelled = none := by
      unfold Task.forgets
      split
      · next hInput => cases hInput
      · rfl
    rw [hNone]
    exact Nat.zero_le _
  · obtain rfl : todo = [] := hTodo
    rw [leaving_of_resume hTask.wait hNext]
    exact Nat.zero_le _
  · obtain rfl : todo = call :: rest := hTodo
    have hLeft : leaving receiver task' ≤ rest.countP (isLeaving receiver) :=
      (@counts_of_exec _ _ _ receiver receiver _ _ _ _ _ _ _ _ _ hExec).1
    have hTask : leaving receiver ⟨call :: rest, wait⟩ =
        rest.countP (isLeaving receiver) + if isLeaving receiver call then 1 else 0 :=
      List.countP_cons
    rw [hTask]
    refine Nat.add_le_add hLeft ?_
    unfold Task.forgets
    split
    · next endpointId reason tail now hTodo =>
        injection hTodo with hCall _
        subst hCall
        rw [Option.toList_some, List.map_singleton, List.countP_singleton, ForgetStage.start]
        cases hId : (fromStr endpointId : Option Id) with
        | none => exact Nat.zero_le _
        | some remote => simp [isLeaving, ForgetStage.isFor, hId]
    · exact Nat.zero_le _

variable (sender) in
/-- What a turn still marks and shows is at most what it had and heard. -/
theorem marking_of_turn (device : Id) (hTask : task.Mute)
    (h : task.turn n self fresh input = some (n', task', spawned)) :
    marking sender task' + (n'.events.drop n.events.length).countP (isShown sender) ≤
      marking sender task +
        (Network.heard device task input).countP (isUnderWay sender device) := by
  obtain ⟨todo, wait⟩ := task
  rcases Task.turn_eq_some h with ⟨_, _, rfl, rfl, _⟩ | ⟨hTodo, rfl, _, hNext⟩ |
    ⟨call, rest, hTodo, hExec⟩
  · rw [List.drop_length]
    exact Nat.zero_le _
  · obtain rfl : todo = [] := hTodo
    rw [List.drop_length, List.countP_nil, Nat.add_zero]
    exact Nat.le_add_left_of_le (marking_of_resume hTask.wait hNext)
  · obtain rfl : todo = call :: rest := hTodo
    exact Nat.le_add_right_of_le (@counts_of_exec _ _ _ sender sender _ _ _ _ _ _ _ _ _ hExec).2

omit [EndpointKeys Id] in
/-- A task of a device writes no `Forget`. -/
theorem countP_sent (hTask : task.Mute) (a : Id) (peer : Option Id) :
    (Network.sent a peer task input).countP (isUnderWay sender receiver) = 0 := by
  apply countP_eq_zero
  intro letter hLetter
  unfold Network.sent at hLetter
  split at hLetter
  · next message must _ _ hTodo =>
      obtain ⟨_, _, rfl⟩ := List.mem_map.mp hLetter
      have hNone := hTask.calls message must (hTodo ▸ List.mem_cons_self)
      simp [isUnderWay, hNone]
  · next message must _ hTodo =>
      obtain ⟨_, _, rfl⟩ := List.mem_map.mp hLetter
      have hNone := hTask.calls message must (hTodo ▸ List.mem_cons_self)
      simp [isUnderWay, hNone]
  · cases hLetter

/-- Spawned tasks start with neither. -/
theorem counts_of_spawned (h : task.turn n self fresh input = some (n', task', spawned))
    {new : Task Id} (hNew : new ∈ spawned) :
    leaving receiver new = 0 ∧ marking sender new = 0 := by
  rcases Task.spawned_cases h hNew with ⟨rfl, _⟩ | ⟨endpointId, relayUrl, rfl⟩ <;> exact ⟨rfl, rfl⟩

end Unpairing

end AltSendme
