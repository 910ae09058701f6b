import AltSendme.Execution.Tally
import AltSendme.Native.Addressing
import AltSendme.Native.Network

/-! Invites, and the answers to them, from user to user. Each is ordered by a
command, written on one connection, read once and shown once; what is ordered and
not yet shown is held by a task of either side or under way between them. -/
namespace AltSendme

variable {Id : Type} [DecidableEq Id] [EndpointKeys Id]
open EndpointKeys (toStr fromStr)
open Execution (exec)

/-- What one user tells another. -/
inductive Notice where
  | ofInvite (invite : Invite)
  | ofResponse (response : InviteResponse)
  deriving DecidableEq

namespace Notice
variable (x : Notice) (sender receiver : Id)

def isIn : ControlMessage → Bool
  | .invite invite => x = .ofInvite invite
  | .inviteResponse _ response => x = .ofResponse response
  | _ => false

/-- The event shows the notice as one of `sender`. -/
def isShown : NodeEvent → Bool
  | .pairedInviteReceived endpointId invite =>
      endpointId = toStr sender ∧ x = .ofInvite invite
  | .pairedInviteResponse endpointId _ response =>
      endpointId = toStr sender ∧ x = .ofResponse response
  | _ => false

/-- The user orders the notice to be sent to `receiver`. -/
def isOrdered : Command Id → Bool
  | .invitePairedDevice endpointId invite =>
      fromStr endpointId = some receiver ∧ x = .ofInvite invite
  | .respondPairedInvite endpointId response =>
      fromStr endpointId = some receiver ∧ x = .ofResponse response
  | _ => false

def isOrderedBy : NetworkLabel Id → Bool
  | .call device command => device = sender ∧ x.isOrdered receiver command
  | _ => false

def isUnderWay (letter : Letter Id) : Bool :=
  letter.sender = sender ∧ letter.receiver = receiver ∧ x.isIn letter.message

def isWritten : Call Id → Bool
  | .send message _ => x.isIn message
  | _ => false

def isReported : Call Id → Bool
  | .emit event => x.isShown sender event
  | .checkInvite conn invite => conn.remote = sender ∧ x = .ofInvite invite
  | .emitInviteResponse remote response => remote = sender ∧ x = .ofResponse response
  | _ => false

/-- How often a task that waits will still write the notice to `receiver`. -/
def owedAt (peer : Option Id) : Wait Id → Nat
  | .notifyWait remote _ message _ | .notifyConnect remote _ message _ =>
      if remote = receiver ∧ x.isIn message then 1 else 0
  | .notifyOpen message => if peer = some receiver ∧ x.isIn message then 1 else 0
  | _ => 0

/-- How often a task with a connection to `peer` will still write the notice. -/
def owed (peer : Option Id) (task : Task Id) : Nat :=
  (if peer = some receiver then task.todo.countP x.isWritten else 0) +
    x.owedAt receiver peer task.wait

/-- How often a task will still show the notice. -/
def due (task : Task Id) : Nat := task.todo.countP (x.isReported sender)

/-- The notices of `sender` to the user of `receiver` that are shown or may
still be. -/
def outstanding (net : Network Id) : Nat :=
  (net.device sender).tally (fun t => x.owed receiver (net.peer sender t)) +
    net.inFlight.countP (x.isUnderWay sender receiver) +
    (net.device receiver).tally (fun _ => x.due sender) +
    (net.shown receiver).countP (x.isShown sender)

section Silent
variable {x}

omit [DecidableEq Id] [EndpointKeys Id] in
/-- Nothing that works an unpairing off writes the notice. -/
theorem isWritten_of_isUnpairing {c : Call Id} (h : c.isUnpairing = true) :
    x.isWritten c = false := by
  unfold Call.isUnpairing at h
  split at h <;> first | rfl | cases h

omit [DecidableEq Id] [EndpointKeys Id] in
/-- No freshly spawned task starts with writing the notice. -/
theorem isWritten_of_isFirst {c : Call Id} (h : c.isFirst = true) : x.isWritten c = false := by
  unfold Call.isFirst at h
  split at h
  all_goals first
    | rfl
    | cases h

omit [DecidableEq Id] in
/-- What a call puts in front of the rest never writes the notice. -/
theorem isWritten_of_pushes {n : Node Id} {fresh : Nat} {call c : Call Id}
    (h : call.Pushes n fresh c) : x.isWritten c = false := by
  cases h with
  | registered conn isOpen c h =>
      simp only [registerInbound, setSession, List.mem_cons, List.not_mem_nil, or_false] at h
      rcases h with rfl | rfl | rfl | rfl <;> rfl
  | unpairedKept op cont c h | unpaired op base cont c h => exact isWritten_of_isUnpairing h
  | _ => rfl

/-- A call that neither reports an invite nor checks one reports nothing. -/
theorem isReported_eq_false {c : Call Id} {sender : Id} (hEvent : c.inviteFrom = none)
    (hCheck : ∀ conn invite, c ≠ .checkInvite conn invite) : x.isReported sender c = false := by
  cases c with
  | emit event => cases event <;> first | rfl | cases hEvent
  | checkInvite conn invite => exact absurd rfl (hCheck conn invite)
  | emitInviteResponse => cases hEvent
  | _ => rfl

theorem isReported_of_isUnpairing {c : Call Id} {sender : Id} (h : c.isUnpairing = true) :
    x.isReported sender c = false := by
  refine isReported_eq_false (Call.inviteFrom_of_isUnpairing h) ?_
  rintro conn invite rfl
  cases h

theorem isReported_of_isFirst {c : Call Id} {sender : Id} (h : c.isFirst = true) :
    x.isReported sender c = false := by
  refine isReported_eq_false (Call.inviteFrom_of_isFirst h) ?_
  rintro conn invite rfl
  cases h

end Silent

/-! What a call does to what its task owes and shows. -/

variable {x sender receiver}

theorem countP_eq_zero {α : Type} {p : α → Bool} {xs : List α} (h : ∀ a ∈ xs, p a = false) :
    xs.countP p = 0 := by
  rw [List.countP_eq_zero]
  intro a ha
  simp [h a ha]

omit [EndpointKeys Id] in
/-- One call in front owes one notice more exactly when it writes the notice to the
receiver. -/
theorem owed_cons (peer : Option Id) (call : Call Id) (rest : List (Call Id)) (wait : Wait Id) :
    x.owed receiver peer ⟨call :: rest, wait⟩ =
      x.owed receiver peer ⟨rest, wait⟩ +
        if peer = some receiver ∧ x.isWritten call then 1 else 0 := by
  unfold owed
  by_cases hPeer : peer = some receiver
  · simp only [hPeer, if_true, true_and, List.countP_cons]
    omega
  · simp only [hPeer, if_false, false_and]
    omega

variable (x receiver) in
/-- Working off one call leaves the task owing no more than the rest owed. -/
theorem owed_of_moves {n : Node Id} {fresh : Nat} {wait : Wait Id} {call : Call Id}
    {rest : List (Call Id)} {task' : Task Id} (peer : Option Id)
    (h : call.Moves n fresh wait rest task') :
    x.owed receiver peer task' ≤ x.owed receiver peer ⟨rest, wait⟩ := by
  have hTodo : task'.todo.countP x.isWritten ≤ rest.countP x.isWritten := by
    rcases h.pushed with hNone | ⟨_, _, _, _, _, _, rfl⟩ | ⟨pushed, hTodo, hPushed⟩
    · rw [hNone]
      exact Nat.zero_le _
    · exact Nat.zero_le _
    · rw [hTodo, List.countP_append,
        countP_eq_zero fun c hc => isWritten_of_pushes (hPushed c hc)]
      omega
  have hWait : x.owedAt receiver peer task'.wait ≤ x.owedAt receiver peer wait := by
    rcases h.nextWait with hSame | ⟨ok, rfl⟩ | ⟨_, _, _, _, hNext⟩ | ⟨_, _, _, hNext⟩ |
      ⟨_, _, _, hNext | ⟨_, hNext⟩⟩ | ⟨_, _, _, hNext⟩
    · rw [hSame]
    · exact Nat.zero_le _
    all_goals
      rw [hNext]
      exact Nat.zero_le _
  unfold owed
  split
  · exact Nat.add_le_add hTodo hWait
  · exact Nat.add_le_add_left hWait 0

variable (x sender receiver) in
omit [EndpointKeys Id] in
/-- One call puts at most the one notice on the way that it writes itself. -/
theorem countP_sent_call (peer : Option Id) (call : Call Id) (rest : List (Call Id))
    (wait : Wait Id) (input : Input) :
    (Network.sent sender peer ⟨call :: rest, wait⟩ input).countP (x.isUnderWay sender receiver) ≤
      if peer = some receiver ∧ x.isWritten call then 1 else 0 := by
  have hLetter (message : ControlMessage) (must : Bool) :
      (peer.toList.map fun other => (⟨sender, other, message⟩ : Letter Id)).countP
          (x.isUnderWay sender receiver) ≤
        if peer = some receiver ∧ x.isWritten (.send message must : Call Id) then 1 else 0 := by
    cases peer with
    | none => exact Nat.zero_le _
    | some other => simp [isUnderWay, isWritten, List.countP_singleton]
  unfold Network.sent
  split
  · next message must _ _ hTodo =>
      injection hTodo with hCall _
      subst hCall
      exact hLetter message must
  · next message must _ hTodo =>
      injection hTodo with hCall _
      subst hCall
      exact hLetter message must
  · exact Nat.zero_le _

/-! What an answer does. -/

section Answers
omit [DecidableEq Id]

theorem isWritten_onRecognition (conn : Connection Id) (signature : String) :
    ∀ c ∈ onRecognition conn signature, x.isWritten c = false := by
  unfold onRecognition
  split <;> simp [isWritten]

theorem isWritten_onForget (conn : Connection Id) (signature : String) (paired : Bool) :
    ∀ c ∈ onForget conn signature paired, x.isWritten c = false := by
  unfold onForget
  split <;> simp [isWritten]

theorem isWritten_onPairingMessage (conn : Connection Id) (s : PairingSession)
    (m : ControlMessage) : ∀ c ∈ (onPairingMessage conn s m).todo, x.isWritten c = false := by
  cases m with
  | pairingInfo info =>
      unfold onPairingMessage
      dsimp only
      split <;> simp [isWritten]
  | recognition signature =>
      intro c hc
      rcases List.mem_append.mp hc with hc | hc
      · exact isWritten_onRecognition conn signature c hc
      · obtain rfl := List.mem_singleton.mp hc
        rfl
  | forget signature =>
      intro c hc
      rcases List.mem_append.mp hc with hc | hc
      · exact isWritten_onForget conn signature false c hc
      · obtain rfl := List.mem_singleton.mp hc
        rfl
  | _ => simp [onPairingMessage, isWritten]

theorem isWritten_onPairedMessage (conn : Connection Id) (m : ControlMessage) :
    ∀ c ∈ (onPairedMessage conn m).todo, x.isWritten c = false := by
  cases m with
  | recognition signature => exact isWritten_onRecognition conn signature
  | forget signature =>
      unfold onPairedMessage
      dsimp only
      split
      · intro c hc
        rcases List.mem_append.mp hc with hc | hc
        · exact isWritten_onForget conn signature true c hc
        · obtain rfl := List.mem_singleton.mp hc
          rfl
      · simp
  | _ => simp [onPairedMessage, isWritten]

theorem isWritten_onOutboundMessage (endpointId : String) (relayUrl : Option String)
    (conn : Connection Id) (m : ControlMessage) :
    ∀ c ∈ (onOutboundMessage endpointId relayUrl conn m).todo, x.isWritten c = false := by
  cases m with
  | recognition signature => exact isWritten_onRecognition conn signature
  | _ => simp [onOutboundMessage, isWritten]

theorem isWritten_onHostInfo (conn : Connection Id) (relayUrl : Option String)
    (m : ControlMessage) : ∀ c ∈ (onHostInfo conn relayUrl m).todo, x.isWritten c = false := by
  cases m with
  | pairingInfo info =>
      unfold onHostInfo
      dsimp only
      split <;> simp [isWritten, Task.returned]
  | _ => simp [onHostInfo, Task.returned]

end Answers

omit [EndpointKeys Id] in
/-- A task that writes no notice owes what its wait owes. -/
theorem owed_of_silent (peer : Option Id) {task : Task Id}
    (h : ∀ c ∈ task.todo, x.isWritten c = false) :
    x.owed receiver peer task = x.owedAt receiver peer task.wait := by
  rw [owed, countP_eq_zero h, ite_self, Nat.zero_add]

/-- An answer leaves a task with what it owed, on the connection it now has. -/
theorem owed_of_resume {n : Node Id} {wait : Wait Id} {input : Input} {task' : Task Id}
    (hCase : ∀ text (id : Id), fromStr text = some id → fromStr text.toLowercase = some id)
    (hSessions : SessionsAddressed n) (hWait : wait.Addressed) (peer : Option Id)
    (h : wait.resume n input = some task') :
    x.owed receiver ((wait.connects n input).or peer) task' ≤ x.owedAt receiver peer wait := by
  cases Wait.resume_answers h with
  | pairingRead conn s m =>
      rw [owed_of_silent _ (isWritten_onPairingMessage conn s m)]
      obtain ⟨_, s', hNext⟩ := onPairingMessage_isAnswer conn m s
      rw [hNext]
      exact Nat.zero_le _
  | pairedRead conn m =>
      rw [owed_of_silent _ (isWritten_onPairedMessage conn m)]
      rcases (onPairedMessage_isAnswer conn m).2 with hNext | hNext
      all_goals
        rw [hNext]
        exact Nat.zero_le _
  | outboundRead endpointId relayUrl conn m =>
      rw [owed_of_silent _ (isWritten_onOutboundMessage endpointId relayUrl conn m),
        (onOutboundMessage_isAnswer conn m endpointId relayUrl).2]
      exact Nat.zero_le _
  | hostRead conn relayUrl m =>
      rw [owed_of_silent _ (isWritten_onHostInfo conn relayUrl m)]
      rcases (onHostInfo_isAnswer conn m relayUrl).2 with hNext | hNext
      all_goals
        rw [hNext]
        exact Nat.zero_le _
  | pairingLost conn s =>
      have hSilent : ∀ c ∈ (pairingLoopEnded conn s).todo, x.isWritten c = false := by
        unfold pairingLoopEnded
        dsimp only
        split <;> simp [isWritten, isIn, rememberVote]
      rw [owed_of_silent _ hSilent]
      unfold pairingLoopEnded
      dsimp only
      split <;> exact Nat.zero_le _
  | sessionFound remote endpointId message fallbackPresence now =>
      obtain ⟨conn, hConn, hSame⟩ := Option.map_eq_some_iff.mp h
      have hKey := hSessions _ conn hConn
      rw [hCase endpointId remote hWait, Option.some.injEq] at hKey
      rw [owed_of_silent _ (by simp)]
      simp [owedAt, Wait.connects, hConn, ← hKey]
  | notifyDialled remote endpointId message fallbackPresence keying id sessionId =>
      rw [owed_of_silent _ (by cases fallbackPresence <;> simp [isWritten])]
      simp [owedAt, Wait.connects]
  | notifyOpened message now =>
      by_cases hPeer : peer = some receiver
      · cases hIn : x.isIn message <;>
          simp [owed, owedAt, Wait.connects, isWritten, hPeer, hIn]
      · simp [owed, owedAt, Wait.connects, hPeer]
  | waitedOut => exact Nat.le_of_eq (owed_of_silent _ (by simp))
  | _ =>
      rw [owed_of_silent _ (by
        simp [isWritten, isIn, rememberVote, unregisterInbound, setSession, Task.returned])]
      exact Nat.zero_le _

theorem countP_onRecognition (conn : Connection Id) (signature : String) :
    (onRecognition conn signature).countP (x.isReported sender) = 0 := by
  apply countP_eq_zero
  unfold onRecognition
  split <;> simp [isReported]

theorem countP_onForget (conn : Connection Id) (signature : String) (paired : Bool) :
    (onForget conn signature paired).countP (x.isReported sender) = 0 := by
  apply countP_eq_zero
  unfold onForget
  split <;> simp [isReported]

/-! A message makes a task show at most the notice in it, as one of its sender. -/

/-- The pairing loop owes its screen at most the message it has just read. -/
theorem due_onPairingMessage (conn : Connection Id) (s : PairingSession) (m : ControlMessage) :
    x.due sender (onPairingMessage conn s m) ≤
      if conn.remote = sender ∧ x.isIn m then 1 else 0 := by
  cases m with
  | pairingInfo info =>
      unfold onPairingMessage
      dsimp only
      split <;> simp [due, isReported]
  | invite invite => simp [due, onPairingMessage, isReported, isIn, List.countP_singleton]
  | inviteResponse sessionId response =>
      simp [due, onPairingMessage, isReported, isIn, List.countP_cons]
  | rememberVote => simp [due, onPairingMessage, isReported]
  | recognition signature =>
      rw [due, onPairingMessage, List.countP_append, countP_onRecognition]
      exact Nat.zero_le _
  | forget signature =>
      rw [due, onPairingMessage, List.countP_append, countP_onForget]
      exact Nat.zero_le _

/-- The paired loop owes its screen at most the message it has just read. -/
theorem due_onPairedMessage (conn : Connection Id) (m : ControlMessage) :
    x.due sender (onPairedMessage conn m) ≤ if conn.remote = sender ∧ x.isIn m then 1 else 0 := by
  cases m with
  | invite invite => simp [due, onPairedMessage, isReported, isShown, isIn, List.countP_singleton]
  | inviteResponse sessionId response =>
      simp [due, onPairedMessage, isReported, isIn, List.countP_singleton]
  | recognition signature =>
      rw [due, onPairedMessage, countP_onRecognition]
      exact Nat.zero_le _
  | forget signature =>
      unfold onPairedMessage
      dsimp only
      split
      · rw [due, List.countP_append, countP_onForget]
        exact Nat.zero_le _
      · exact Nat.zero_le _
  | _ => exact Nat.zero_le _

/-- The outbound loop owes its screen at most the message it has just read. -/
theorem due_onOutboundMessage (endpointId : String) (relayUrl : Option String)
    (conn : Connection Id) (m : ControlMessage) :
    x.due sender (onOutboundMessage endpointId relayUrl conn m) ≤
      if conn.remote = sender ∧ x.isIn m then 1 else 0 := by
  cases m with
  | invite invite =>
      simp [due, onOutboundMessage, isReported, isShown, isIn, List.countP_singleton]
  | inviteResponse sessionId response =>
      simp [due, onOutboundMessage, isReported, isIn, List.countP_singleton]
  | recognition signature =>
      rw [due, onOutboundMessage, countP_onRecognition]
      exact Nat.zero_le _
  | _ => exact Nat.zero_le _

/-- A pairing's answer is never shown as a notice. -/
theorem due_onHostInfo (conn : Connection Id) (relayUrl : Option String) (m : ControlMessage) :
    x.due sender (onHostInfo conn relayUrl m) = 0 := by
  apply countP_eq_zero
  cases m with
  | pairingInfo info =>
      unfold onHostInfo
      dsimp only
      split <;> simp [isReported, isShown, Task.returned]
  | _ => simp [onHostInfo, Task.returned]

omit [EndpointKeys Id] in
/-- A task that hears the sender takes the notice off the network exactly once. -/
theorem countP_heard {device : Id} {todo : List (Call Id)} {wait : Wait Id} {from' : Id}
    {m : ControlMessage} (hHears : wait.hears = some from') :
    (Network.heard device ⟨todo, wait⟩ (.message m)).countP (x.isUnderWay sender device) =
      if from' = sender ∧ x.isIn m then 1 else 0 := by
  simp [Network.heard, hHears, Input.heard, isUnderWay, List.countP_singleton]

/-- What an answer makes a task show, it has taken from the network. -/
theorem due_of_resume {n : Node Id} {device : Id} {todo : List (Call Id)} {wait : Wait Id}
    {input : Input} {task' : Task Id} (h : wait.resume n input = some task') :
    x.due sender task' ≤
      (Network.heard device ⟨todo, wait⟩ input).countP (x.isUnderWay sender device) := by
  cases Wait.resume_answers h with
  | pairingRead conn s m =>
      rw [countP_heard rfl]
      exact due_onPairingMessage conn s m
  | pairedRead conn m =>
      rw [countP_heard rfl]
      exact due_onPairedMessage conn m
  | outboundRead endpointId relayUrl conn m =>
      rw [countP_heard rfl]
      exact due_onOutboundMessage endpointId relayUrl conn m
  | hostRead conn relayUrl m =>
      rw [due_onHostInfo]
      exact Nat.zero_le _
  | pairingLost conn s =>
      unfold pairingLoopEnded
      rw [due, countP_eq_zero]
      · exact Nat.zero_le _
      · dsimp only
        split <;> simp [isReported]
  | notifyDialled remote endpointId message fallbackPresence keying id sessionId =>
      rw [due, countP_eq_zero]
      · exact Nat.zero_le _
      · cases fallbackPresence <;> simp [isReported]
  | _ =>
      rw [due, countP_eq_zero]
      · exact Nat.zero_le _
      · simp [isReported, isShown, unregisterInbound, setSession, Task.returned]

/-! What a call makes its task show, and what it shows itself. -/

theorem isReported_of_pushes {n : Node Id} {fresh : Nat} {call c : Call Id}
    (h : call.Pushes n fresh c) (hCheck : ∀ conn invite, call ≠ .checkInvite conn invite) :
    x.isReported sender c = false := by
  cases h with
  | registered conn isOpen c h =>
      simp only [registerInbound, setSession, List.mem_cons, List.not_mem_nil, or_false] at h
      rcases h with rfl | rfl | rfl | rfl <;> rfl
  | unpairedKept op cont c h | unpaired op base cont c h => exact isReported_of_isUnpairing h
  | invited conn invite | checked conn invite => exact absurd rfl (hCheck conn invite)
  | _ => rfl

/-- Working off one call leaves the task owing its screen no more than the rest did. -/
theorem due_of_moves {n : Node Id} {fresh : Nat} {wait : Wait Id} {call : Call Id}
    {rest : List (Call Id)} {task' : Task Id} (h : call.Moves n fresh wait rest task')
    (hCheck : ∀ conn invite, call ≠ .checkInvite conn invite) :
    x.due sender task' ≤ rest.countP (x.isReported sender) := by
  unfold due
  rcases h.pushed with hNone | ⟨conn, s, info, now, _, _, rfl⟩ | ⟨pushed, hTodo, hPushed⟩
  · rw [hNone]
    exact Nat.zero_le _
  · rw [countP_eq_zero]
    · exact Nat.zero_le _
    · simp [pairingCompleted, isReported, isShown]
  · rw [hTodo, List.countP_append,
      countP_eq_zero fun c hc => isReported_of_pushes (hPushed c hc) hCheck]
    omega

/-- One call shows the notice at most once, and only where it reports it. -/
theorem shown_of_changes {n n' : Node Id} {fresh : Nat} {call : Call Id}
    (h : call.Changes n fresh n') (hCheck : ∀ conn invite, call ≠ .checkInvite conn invite) :
    (n'.events.drop n.events.length).countP (x.isShown sender) ≤
      if x.isReported sender call then 1 else 0 := by
  have hKept (m : Node Id) (hSame : m.events = n.events) :
      (m.events.drop n.events.length).countP (x.isShown sender) ≤
        if x.isReported sender call then 1 else 0 := by
    rw [hSame, List.drop_length]
    exact Nat.zero_le _
  cases h with
  | emitted event =>
      cases hShown : x.isShown sender event <;> simp [Node.emit, isReported, hShown]
  | answered remote response displayName =>
      simp [Node.emit, isReported, isShown, List.countP_singleton]
  | presence endpointId writer =>
      rcases n.setPresence_events endpointId writer.online with hSame | ⟨lastSeenAt, hNew⟩
      · exact hKept _ hSame
      · rw [hNew, List.drop_left]
        exact Nat.zero_le _
  | _ => exact hKept _ rfl

/-- What a call shows, or leaves its task to show, the task was to show. -/
theorem due_of_exec {n n' : Node Id} {fresh : Nat} {wait : Wait Id} {rest : List (Call Id)}
    {call : Call Id} {input : Input} {task' : Task Id} {spawned : List (Task Id)}
    (h : call.exec n fresh wait rest input = some (n', task', spawned)) :
    x.due sender task' + (n'.events.drop n.events.length).countP (x.isShown sender) ≤
      x.due sender ⟨call :: rest, wait⟩ := by
  have hMoves := Call.exec_moves h
  have hChanges := Call.exec_changes h
  have hDue : x.due sender ⟨call :: rest, wait⟩ =
      rest.countP (x.isReported sender) + if x.isReported sender call then 1 else 0 :=
    List.countP_cons
  by_cases hCheck : ∃ conn invite, call = .checkInvite conn invite
  · obtain ⟨conn, invite, rfl⟩ := hCheck
    obtain rfl : n' = n := by
      cases hChanges
      rfl
    rw [List.drop_length, List.countP_nil, Nat.add_zero, hDue]
    cases hMoves with
    | onward => exact Nat.le_add_right _ _
    | stopped _ _ hStop => cases hStop
    | invited conn other s invite _ _ =>
        simp [due, isReported, isShown, List.countP_cons]
  · have hOther : ∀ conn invite, call ≠ .checkInvite conn invite :=
      fun conn invite hCall => hCheck ⟨conn, invite, hCall⟩
    have hTask : x.due sender task' ≤ rest.countP (x.isReported sender) :=
      due_of_moves hMoves hOther
    have hShown : (n'.events.drop n.events.length).countP (x.isShown sender) ≤
        if x.isReported sender call then 1 else 0 := shown_of_changes hChanges hOther
    omega

/-! One turn of one task. -/

section Turn
variable {n n' : Node Id} {self fresh : Nat} {task task' : Task Id} {input : Input}
  {spawned : List (Task Id)}

variable (x sender receiver) in
/-- What a turn still owes and what it has put on the way is at most what the task owed
before. -/
theorem owed_of_turn
    (hCase : ∀ text (id : Id), fromStr text = some id → fromStr text.toLowercase = some id)
    (hSessions : SessionsAddressed n) (hWait : task.wait.Addressed) (peer : Option Id)
    (h : task.turn n self fresh input = some (n', task', spawned)) :
    x.owed receiver ((task.connects n input).or peer) task' +
        (Network.sent sender peer task input).countP (x.isUnderWay sender receiver) ≤
      x.owed receiver peer task := by
  obtain ⟨todo, wait⟩ := task
  rcases Task.turn_eq_some h with ⟨rfl, _, _, rfl, _⟩ | ⟨hTodo, _, _, hNext⟩ |
    ⟨call, rest, hTodo, hExec⟩
  · have hSent : Network.sent sender peer (⟨todo, wait⟩ : Task Id) .cancelled = [] := by
      unfold Network.sent
      split
      · next hInput => cases hInput
      · next hInput => cases hInput
      · rfl
    rw [hSent, owed_of_silent _ (by simp [Task.returned])]
    exact Nat.zero_le _
  · obtain rfl : todo = [] := hTodo
    have hSent : Network.sent sender peer (⟨[], wait⟩ : Task Id) input = [] := rfl
    rw [hSent, @owed_of_silent _ _ x receiver peer ⟨[], wait⟩ (by simp)]
    exact owed_of_resume hCase hSessions hWait peer hNext
  · obtain rfl : todo = call :: rest := hTodo
    have hMoved := owed_of_moves x receiver peer (Call.exec_moves hExec)
    have hSent := countP_sent_call x sender receiver peer call
      rest wait input
    rw [owed_cons]
    exact Nat.add_le_add hMoved hSent

variable (x sender) in
/-- What a turn shows and still owes its screen is at most what it owed and took off the
network. -/
theorem due_of_turn (device : Id)
    (h : task.turn n self fresh input = some (n', task', spawned)) :
    x.due sender task' + (n'.events.drop n.events.length).countP (x.isShown sender) ≤
      x.due sender task +
        (Network.heard device task input).countP (x.isUnderWay sender device) := by
  obtain ⟨todo, wait⟩ := task
  rcases Task.turn_eq_some h with ⟨_, _, rfl, rfl, _⟩ | ⟨hTodo, rfl, _, hNext⟩ |
    ⟨call, rest, hTodo, hExec⟩
  · rw [List.drop_length]
    exact Nat.zero_le _
  · obtain rfl : todo = [] := hTodo
    rw [List.drop_length, List.countP_nil, Nat.add_zero]
    exact Nat.le_add_left_of_le (due_of_resume hNext)
  · obtain rfl : todo = call :: rest := hTodo
    exact Nat.le_add_right_of_le (due_of_exec hExec)

/-- Spawned tasks start owing nothing. -/
theorem owed_of_spawned (h : task.turn n self fresh input = some (n', task', spawned))
    {new : Task Id} (hNew : new ∈ spawned) (peer : Option Id) : x.owed receiver peer new = 0 := by
  rcases Task.spawned_cases h hNew with ⟨rfl, _⟩ | ⟨endpointId, relayUrl, rfl⟩
  · exact ite_self _
  · exact ite_self _

/-- Spawned tasks start with nothing to show. -/
theorem due_of_spawned (h : task.turn n self fresh input = some (n', task', spawned))
    {new : Task Id} (hNew : new ∈ spawned) : x.due sender new = 0 := by
  rcases Task.spawned_cases h hNew with ⟨rfl, _⟩ | ⟨endpointId, relayUrl, rfl⟩ <;> rfl

end Turn

end Notice

end AltSendme
