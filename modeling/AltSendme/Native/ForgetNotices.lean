import AltSendme.Native.Network

/-! A network whose devices tell each other that they have forgotten one another.
`forget_paired` leaves that to a task of its own, `send_forget_to_peer`, which uses
no state of the node but its identity. -/
namespace AltSendme

variable {Id : Type} [DecidableEq Id] [EndpointKeys Id]
open EndpointKeys (toStr fromStr)

/-- Where `send_forget_to_peer` awaits. -/
inductive ForgetStage (Id : Type) where
  | connecting (remote : Id)
  | opening (remote : Id) (keying : List UInt8)
  | writing (remote : Id) (message : ControlMessage)
  | closing
  | ended
  deriving DecidableEq

namespace ForgetStage

def start (endpointId : String) : ForgetStage Id :=
  match (fromStr endpointId : Option Id) with
  | none => .ended
  | some remote => .connecting remote

/-- The two waits with a timeout are answered with `closed` when it elapses. -/
def turn (identity : DeviceIdentity Id) : ForgetStage Id → Input → Option (ForgetStage Id)
  | .connecting remote, .connected keying _ _ => some (.opening remote keying)
  | .connecting _, .fail | .connecting _, .closed => some .ended
  | .opening remote keying, .go _ =>
      some (.writing remote (.forget (signChallenge identity.id keying)))
  | .opening _ _, .fail => some .ended
  | .writing _ _, .go _ => some .closing
  | .writing _ _, .fail => some .ended
  | .closing, .closed => some .ended
  | _, _ => none

/-- What a turn gives to the network. A write that fails may have got through. -/
def written (device : Id) : ForgetStage Id → Input → List (Letter Id)
  | .writing remote message, .go _ | .writing remote message, .fail =>
      [⟨device, remote, message⟩]
  | _, _ => []

end ForgetStage

/-- `forget_paired` reports the device as its last act, and then spawns the task that
tells it. No other function reports one without a name. -/
def Task.forgets (task : Task Id) (input : Input) : Option String :=
  match task.todo, input with
  | .emit (.deviceUnpaired endpointId none _) :: _, .go _ => some endpointId
  | _, _ => none

/-- `forgetting` are the tasks that `forget_paired` spawned on each device. -/
structure ForgettingNetwork (Id : Type) where
  net : Network Id
  forgetting : Id → List (ForgetStage Id)

inductive ForgettingLabel (Id : Type) where
  | net (label : NetworkLabel Id)
  | forget (device : Id) (index : Nat) (input : Input)

namespace ForgettingNetwork

/-- The tasks of a device after a step of the network. They end with their process. -/
def forgettingAfter (w : ForgettingNetwork Id) : NetworkLabel Id → Id → List (ForgetStage Id)
  | .turn a t input =>
      Function.update w.forgetting a (w.forgetting a ++
        (((w.net.device a).tasks[t]?).bind (·.forgets input)).toList.map ForgetStage.start)
  | .restart a _ => Function.update w.forgetting a []
  | .call _ _ | .foreign _ => w.forgetting

def next (program : Id → Bool) (w : ForgettingNetwork Id) :
    ForgettingLabel Id → Option (ForgettingNetwork Id)
  | .net l => (w.net.next program l).map fun net => ⟨net, w.forgettingAfter l⟩
  | .forget a k input =>
      ((w.forgetting a)[k]?).bind fun stage =>
        (stage.turn (w.net.device a).shared.identity input).map fun stage' =>
          { net := { w.net with inFlight := w.net.inFlight ++ stage.written a input }
            forgetting := Function.update w.forgetting a ((w.forgetting a).set k stage') }

def start (identity : Id → DeviceIdentity Id) (file : Id → List PairedDevice) :
    ForgettingNetwork Id :=
  ⟨Network.start identity file, fun _ => []⟩

end ForgettingNetwork

/-! Who can write a `Forget`. -/

def ControlMessage.isForget : ControlMessage → Bool
  | .forget _ => true
  | _ => false

def StoreOp.marks : StoreOp → Bool
  | .markUnpairedRemotely _ => true
  | _ => false

def StoreCont.unpairs : StoreCont Id → Bool
  | .unpaired _ _ => true
  | _ => false

/-- A call that neither writes a `Forget` nor reports or marks an unpaired device. -/
def Call.isForgetless : Call Id → Bool
  | .send message _ => !message.isForget
  | .emit (.deviceUnpaired _ _ _) => false
  | .store op cont | .storeWrite op _ cont => !(op.marks || cont.unpairs)
  | _ => true

/-- The message that a command orders is not a `Forget`. -/
def Wait.Mute : Wait Id → Prop
  | .notifyWait _ _ message _ | .notifyConnect _ _ message _ | .notifyOpen message =>
      message.isForget = false
  | _ => True

/-- No task of the node writes a `Forget`. -/
structure Task.Mute (task : Task Id) : Prop where
  calls : ∀ message must, .send message must ∈ task.todo → message.isForget = false
  wait : task.wait.Mute

section Calls
variable {n : Node Id}

omit [DecidableEq Id] [EndpointKeys Id] in
theorem Task.Mute.of_forgetless {task : Task Id} (hNone : ∀ c ∈ task.todo, c.isForgetless = true)
    (hWait : task.wait.Mute) : task.Mute where
  calls message must hMem := by simpa [Call.isForgetless] using hNone _ hMem
  wait := hWait

omit [DecidableEq Id] in
/-- Neither Recognition nor its answer tells anybody to forget. -/
theorem onRecognition_forgetless (conn : Connection Id) (signature : String) :
    (onRecognition conn signature).all Call.isForgetless = true := by
  unfold onRecognition
  split <;> rfl

/-- What an answer leads to has nothing to do with forgetting, but for the first call
after a `Forget` that the other end has signed. -/
inductive Answered (remote : Id) : Input → List (Call Id) → Prop where
  | other (input : Input) (todo : List (Call Id)) (hNone : todo.all Call.isForgetless = true) :
      Answered remote input todo
  | forgotten (signature : String) (paired : Bool) (todo : List (Call Id))
      (hNone : todo.all Call.isForgetless = true) :
      Answered remote (.message (.forget signature))
        (.store (.markUnpairedRemotely (toStr remote)) (.unpaired remote paired) :: todo)

omit [DecidableEq Id] in
/-- A Forget that was read is answered by marking its sender, and by nothing else. -/
theorem answered_onForget (conn : Connection Id) (signature : String) (paired : Bool)
    {rest : List (Call Id)} (hRest : rest.all Call.isForgetless = true) :
    Answered conn.remote (.message (.forget signature)) (onForget conn signature paired ++ rest) := by
  unfold onForget
  split
  · exact .forgotten signature paired rest hRest
  · exact .other _ _ hRest

omit [DecidableEq Id] in
/-- The pairing loop tells nobody to forget and marks only the peer it reads. -/
theorem answered_onPairingMessage (conn : Connection Id) (s : PairingSession)
    (m : ControlMessage) :
    Answered conn.remote (.message m) (onPairingMessage conn s m).todo := by
  cases m with
  | pairingInfo info =>
      unfold onPairingMessage
      dsimp only
      split
      · exact .other _ _ rfl
      · exact .other _ _ rfl
  | recognition signature =>
      refine .other _ _ ?_
      rw [onPairingMessage, List.all_append, onRecognition_forgetless]
      rfl
  | forget signature => exact answered_onForget conn signature false rfl
  | _ => exact .other _ _ rfl

omit [DecidableEq Id] in
/-- The paired loop tells nobody to forget and marks only the peer it reads. -/
theorem answered_onPairedMessage (conn : Connection Id) (m : ControlMessage) :
    Answered conn.remote (.message m) (onPairedMessage conn m).todo := by
  cases m with
  | recognition signature => exact .other _ _ (onRecognition_forgetless conn signature)
  | forget signature =>
      unfold onPairedMessage
      dsimp only
      split
      · exact answered_onForget conn signature true rfl
      · exact .other _ _ rfl
  | _ => exact .other _ _ rfl

omit [DecidableEq Id] in
/-- The outbound loop ignores a Forget altogether. -/
theorem onOutboundMessage_forgetless (endpointId : String) (relayUrl : Option String)
    (conn : Connection Id) (m : ControlMessage) :
    (onOutboundMessage endpointId relayUrl conn m).todo.all Call.isForgetless = true := by
  cases m with
  | recognition signature => exact onRecognition_forgetless conn signature
  | _ => rfl

omit [DecidableEq Id] in
/-- A joiner reads no Forget while it waits for the host. -/
theorem onHostInfo_forgetless (conn : Connection Id) (relayUrl : Option String) (m : ControlMessage) :
    (onHostInfo conn relayUrl m).todo.all Call.isForgetless = true := by
  cases m with
  | pairingInfo info =>
      unfold onHostInfo
      dsimp only
      split <;> rfl
  | _ => rfl

omit [DecidableEq Id] in
/-- A task that wakes up either has nothing to forget or answers the message it was woken
by. -/
theorem Wait.Mute.answered {wait : Wait Id} {input : Input} {task' : Task Id} (hWait : wait.Mute)
    (h : wait.resume n input = some task') :
    task'.todo.all Call.isForgetless = true ∨
      ∃ remote, wait.hears = some remote ∧ Answered remote input task'.todo := by
  cases Wait.resume_answers h with
  | pairingRead conn s m => exact Or.inr ⟨_, rfl, answered_onPairingMessage conn s m⟩
  | pairedRead conn m => exact Or.inr ⟨_, rfl, answered_onPairedMessage conn m⟩
  | outboundRead endpointId relayUrl conn m =>
      exact Or.inl (onOutboundMessage_forgetless endpointId relayUrl conn m)
  | hostRead conn relayUrl m => exact Or.inl (onHostInfo_forgetless conn relayUrl m)
  | pairingLost conn s =>
      unfold pairingLoopEnded
      dsimp only
      split <;> exact Or.inl rfl
  | notifyDialled remote endpointId message fallbackPresence =>
      cases fallbackPresence <;> exact Or.inl rfl
  | notifyOpened message now =>
      have hMessage : message.isForget = false := hWait
      exact Or.inl (by simp [Call.isForgetless, hMessage])
  | _ => exact Or.inl rfl

omit [DecidableEq Id] in
/-- Whatever a task waits for next, it stays mute. -/
theorem Wait.Mute.nextWait {wait : Wait Id} {input : Input} {task' : Task Id} (hWait : wait.Mute)
    (h : wait.resume n input = some task') : task'.wait.Mute := by
  cases Wait.resume_answers h with
  | pairingRead conn s m =>
      obtain ⟨_, s', hNext⟩ := onPairingMessage_isAnswer conn m s
      rw [hNext]
      trivial
  | pairedRead conn m =>
      rcases (onPairedMessage_isAnswer conn m).2 with hNext | hNext
      all_goals
        rw [hNext]
        trivial
  | outboundRead endpointId relayUrl conn m =>
      rw [(onOutboundMessage_isAnswer conn m endpointId relayUrl).2]
      trivial
  | hostRead conn relayUrl m =>
      rcases (onHostInfo_isAnswer conn m relayUrl).2 with hNext | hNext
      all_goals
        rw [hNext]
        trivial
  | pairingLost conn s =>
      unfold pairingLoopEnded
      dsimp only
      split <;> trivial
  | sessionFound | waitedOut | notifyDialled => exact hWait
  | _ => trivial

omit [DecidableEq Id] [EndpointKeys Id] in
theorem Call.message_of_forgetless {message : ControlMessage} {must : Bool} {todo : List (Call Id)}
    (hNone : todo.all Call.isForgetless = true) (hMem : .send message must ∈ todo) :
    message.isForget = false := by
  simpa [isForgetless] using List.all_eq_true.mp hNone _ hMem

omit [DecidableEq Id] in
/-- An answer to a message sends no Forget. -/
theorem Answered.message {remote : Id} {input : Input} {todo : List (Call Id)}
    (h : Answered remote input todo) {message : ControlMessage} {must : Bool}
    (hMem : .send message must ∈ todo) : message.isForget = false := by
  cases h with
  | other _ _ hNone => exact Call.message_of_forgetless hNone hMem
  | forgotten signature paired rest hNone =>
      rcases List.mem_cons.mp hMem with hFirst | hRest
      · cases hFirst
      · exact Call.message_of_forgetless hNone hRest

omit [EndpointKeys Id] [DecidableEq Id] in
theorem Call.message_of_unpairing {c : Call Id} {message : ControlMessage} {must : Bool}
    (h : c.isUnpairing = true) : c ≠ .send message must := by
  rintro rfl
  cases h

omit [DecidableEq Id] in
/-- What a call puts in its own place writes no message. -/
theorem Call.Pushes.noMessage {fresh : Nat} {call c : Call Id} (h : call.Pushes n fresh c)
    {message : ControlMessage} {must : Bool} : c ≠ .send message must := by
  cases h with
  | registered conn isOpen c h =>
      simp only [registerInbound, setSession, List.mem_cons, List.not_mem_nil, or_false] at h
      rcases h with rfl | rfl | rfl | rfl <;> simp
  | unpairedKept op cont c h | unpaired op base cont c h => exact message_of_unpairing h
  | _ => simp

/-- One turn keeps a task mute. -/
theorem Task.Mute.of_turn {n' : Node Id} {self fresh : Nat} {task task' : Task Id} {input : Input}
    {spawned : List (Task Id)} (hTask : task.Mute)
    (h : task.turn n self fresh input = some (n', task', spawned)) : task'.Mute := by
  rcases Task.turn_eq_some h with ⟨_, _, _, rfl, _⟩ | ⟨_, _, _, hNext⟩ | ⟨call, rest, hTodo, hExec⟩
  · exact .of_forgetless (by simp [Task.returned]) trivial
  · refine ⟨fun message must hMem => ?_, hTask.wait.nextWait hNext⟩
    rcases hTask.wait.answered hNext with hNone | ⟨remote, _, hAnswered⟩
    · exact Call.message_of_forgetless hNone hMem
    · exact hAnswered.message hMem
  · have hMoves := Call.exec_moves hExec
    refine ⟨fun message must hMem => ?_, ?_⟩
    · rcases hMoves.pushed with hNone | ⟨conn, s, info, now, _, _, rfl⟩ | ⟨pushed, hNew, hPushed⟩
      · rw [hNone] at hMem
        cases hMem
      · simp only [pairingCompleted, List.mem_cons, reduceCtorEq, Call.send.injEq, false_or,
          List.not_mem_nil, or_false] at hMem
        rw [hMem.1]
        rfl
      · rw [hNew] at hMem
        rcases List.mem_append.mp hMem with hOwn | hRest
        · exact absurd rfl (hPushed _ hOwn).noMessage
        · exact hTask.calls message must (hTodo ▸ List.mem_cons_of_mem _ hRest)
    · rcases hMoves.nextWait with hSame | ⟨ok, rfl⟩ | ⟨_, _, _, _, hWait⟩ | ⟨_, _, _, hWait⟩ |
        ⟨_, _, _, hWait | ⟨_, hWait⟩⟩ | ⟨_, _, _, hWait⟩
      · rw [hSame]
        exact hTask.wait
      · trivial
      all_goals
        rw [hWait]
        trivial

omit [DecidableEq Id] in
/-- Every task of a command is mute; an unpairing tells the peer from a task of its own. -/
theorem Command.mute (command : Command Id) : command.start.Mute := by
  have hFirst := command.starts.isFirst.1
  refine ⟨fun message must hMem => ?_, ?_⟩
  · cases List.all_eq_true.mp hFirst _ hMem
  have hNotify (endpointId : String) (message : ControlMessage) (fallbackPresence : Bool)
      (hMessage : message.isForget = false) :
      (Command.notify endpointId message fallbackPresence : Task Id).wait.Mute := by
    unfold Command.notify
    split
    · trivial
    · exact hMessage
  cases command with
  | invitePairedDevice endpointId invite => exact hNotify endpointId (.invite invite) true rfl
  | respondPairedInvite endpointId response =>
      exact hNotify endpointId (.inviteResponse "" response) false rfl
  | joinPairing ticket =>
      unfold Command.start
      dsimp only
      split
      · trivial
      · split <;> trivial
  | _ => trivial

omit [DecidableEq Id] in
/-- Every task that a node starts by itself is mute. -/
theorem NewTask.mute {task : Task Id} (h : NewTask task) : task.Mute := by
  cases h with
  | command command => exact command.mute
  | _ => exact .of_forgetless (by simp [Call.isForgetless]) trivial

/-- In every state of a device none of its tasks writes a `Forget`. -/
theorem mute_started (restart : Restart Id) (file : List PairedDevice) :
    (started restart file).All fun _ task => task.Mute :=
  fun _ _ hTask => (started_new hTask).mute

/-- A node all of whose tasks are mute stays so over one step. -/
theorem mute_step {c d : NodeConfig Id} {l : NodeLabel Id}
    (h : c.All fun _ task => task.Mute) (hStep : step c l = some d) :
    d.All fun _ task => task.Mute :=
  step_all h hStep (fun _ _ hNew => hNew.mute)
    (fun _ _ _ _ _ _ _ _ hTask hTurn => hTask.of_turn hTurn)
    (fun _ _ _ _ _ _ _ _ _ _ _ _ _ hOther => hOther)

end Calls

end AltSendme
