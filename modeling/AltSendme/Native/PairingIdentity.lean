import AltSendme.Native.Turn
import AltSendme.Protocol.HexKeys

/-! Which identity a pairing binds. Both sides check that a `PairingInfo` is
signed by the id it claims; neither compares that id with the one the
connection authenticated. What is remembered is therefore decided by one
message of the peer, and by nothing else it sends. -/
namespace AltSendme

/-- The messages read once an answer has arrived. -/
def readsAfter (messages : List ControlMessage) : Input → List ControlMessage
  | .message m => messages ++ [m]
  | _ => messages

/-- The messages a task has read. A restart ends every task. -/
def reads {Id : Type} (t : Nat) (ls : List (NodeLabel Id)) : List ControlMessage :=
  ls.foldl (fun messages l =>
    match l with
    | .turn u input => if u = t then readsAfter messages input else messages
    | .restart _ => []
    | .call _ => messages) []

section Reads
variable {Id : Type} (t : Nat) (ls : List (NodeLabel Id))

theorem reads_call (command : Command Id) : reads t (ls ++ [.call command]) = reads t ls := by
  simp only [reads, List.foldl_append, List.foldl_cons, List.foldl_nil]

theorem reads_restart (restart : Restart Id) : reads t (ls ++ [.restart restart]) = [] := by
  simp only [reads, List.foldl_append, List.foldl_cons, List.foldl_nil]

/-- A turn reads for its own task only. -/
theorem reads_turn (u : Nat) (input : Input) :
    reads t (ls ++ [.turn u input]) =
      if u = t then readsAfter (reads t ls) input else reads t ls := by
  simp only [reads, List.foldl_append, List.foldl_cons, List.foldl_nil]

end Reads

variable {Id : Type} [EndpointKeys Id]
open EndpointKeys (toStr fromStr)
open Execution (exec exec_history)

inductive PairingRole where
  | host
  | joiner
  deriving DecidableEq

/-- A session about to remember `device` and then to allow `peer`. -/
structure Admission (Id : Type) where
  role : PairingRole
  conn : Connection Id
  device : PairedDevice
  peer : Id
  deriving DecidableEq

namespace Admission

/-- The record and the allowlist entry are the remote's own. -/
def Bound (a : Admission Id) : Prop :=
  fromStr a.device.endpointId = some a.conn.remote ∧ a.peer = a.conn.remote

instance [DecidableEq Id] (a : Admission Id) : Decidable a.Bound := by
  unfold Bound
  infer_instance

end Admission

/-- The two places that remember a paired device: `handle_connection` on
completion and the end of `join_pairing`. -/
def Task.admission (task : Task Id) : Option (Admission Id) :=
  match task.todo, task.wait with
  | .store (.remember device) _ :: .allowPeer peer :: _, .holding conn =>
      some ⟨.host, conn, device, peer⟩
  | .store (.remember device) _ :: .allowPeer peer :: _, .joined conn =>
      some ⟨.joiner, conn, device, peer⟩
  | _, _ => none

omit [EndpointKeys Id] in
/-- A task about to admit a peer has the remembering and the allowing of it in front. -/
theorem Task.admission_eq_some {task : Task Id} {a : Admission Id} (h : task.admission = some a) :
    ∃ cont rest, task.todo = .store (.remember a.device) cont :: .allowPeer a.peer :: rest ∧
      (task.wait = .holding a.conn ∨ task.wait = .joined a.conn) := by
  unfold admission at h
  split at h
  · next hTodo hWait =>
      obtain rfl := Option.some.inj h
      exact ⟨_, _, hTodo, Or.inl hWait⟩
  · next hTodo hWait =>
      obtain rfl := Option.some.inj h
      exact ⟨_, _, hTodo, Or.inr hWait⟩
  · cases h

/-- The last `PairingInfo` that passed the host's check. -/
def lastAccepted (Id : Type) [EndpointKeys Id] (keying : List UInt8)
    (messages : List ControlMessage) : Option PairingInfo :=
  messages.foldl (fun last m =>
    match m with
    | .pairingInfo info => if (acceptedPeer keying info : Option Id).isSome then some info else last
    | _ => last) none

/-- The one message that decides what is remembered. -/
def decidingInfo (role : PairingRole) (conn : Connection Id) (messages : List ControlMessage) :
    Option PairingInfo :=
  match role with
  | .host => lastAccepted Id conn.keying messages
  | .joiner =>
      match messages.head? with
      | some (.pairingInfo info) => some info
      | _ => none

/-- A later PairingInfo decides, where it is accepted at all. -/
theorem lastAccepted_append (keying : List UInt8) (messages : List ControlMessage)
    (m : ControlMessage) :
    lastAccepted Id keying (messages ++ [m]) =
      match m with
      | .pairingInfo info =>
          if (acceptedPeer keying info : Option Id).isSome then some info
          else lastAccepted Id keying messages
      | _ => lastAccepted Id keying messages := by
  simp only [lastAccepted, List.foldl_append, List.foldl_cons, List.foldl_nil]

/-- What the accepted id proves: it owns the signature on this connection. -/
theorem acceptedPeer_eq_some {keying : List UInt8} {info : PairingInfo} {peer : Id} :
    acceptedPeer keying info = some peer ↔
      fromStr info.endpointId = some peer ∧ verifyChallenge peer keying info.signature = true := by
  unfold acceptedPeer
  cases hParse : (fromStr info.endpointId : Option Id) with
  | none => simp
  | some id =>
      simp only [Option.ite_none_right_eq_some, Option.some.injEq]
      constructor
      · rintro ⟨hVerify, rfl⟩
        exact ⟨rfl, hVerify⟩
      · rintro ⟨rfl, hVerify⟩
        exact ⟨hVerify, rfl⟩

/-- Calls that neither remember a device nor read the gate. -/
def Call.isPlain : Call Id → Bool
  | .store (.remember _) _ | .rememberHost _ _ | .readPairingHostOpen _ | .readAllowed _ _ => false
  | _ => true

namespace Wait

/-- Waits before the first message of a pairing has been read. -/
def isEarly : Wait Id → Bool
  | .acceptBi _ | .pairing _ _ | .joinConnect _ _ | .joinOpen _ _ | .joinRead _ _ => true
  | _ => false

/-- Waits of a session whose pairing has begun. -/
def isLate : Wait Id → Bool
  | .pairing _ _ | .holding _ | .joined _ => true
  | _ => false

end Wait

/-- What the messages read so far say about a task. The host keeps the last
accepted info, the joiner goes on only after a first message that is one, and
each side remembers once. -/
inductive PairingRead (messages : List ControlMessage) : Task Id → Prop where
  | unread (todo : List (Call Id)) (wait : Wait Id) (hNone : messages = [])
      (hWait : wait.isLate = false) : PairingRead messages ⟨todo, wait⟩
  | reading (todo : List (Call Id)) (conn : Connection Id) (s : PairingSession)
      (hPlain : todo.all Call.isPlain)
      (hInfo : s.remoteInfo = lastAccepted Id conn.keying messages) :
      PairingRead messages ⟨todo, .pairing conn s⟩
  | completed (conn : Connection Id) (info : PairingInfo) (now : UInt64)
      (homeRelayUrl : Option String)
      (hInfo : lastAccepted Id conn.keying messages = some info) :
      PairingRead messages (pairingCompleted conn info now homeRelayUrl)
  | hostFound (conn : Connection Id) (info : PairingInfo) (relayUrl : Option String) (peer : Id)
      (hFirst : messages.head? = some (.pairingInfo info))
      (hPeer : acceptedPeer conn.keying info = some peer) :
      PairingRead messages
        ⟨[.rememberHost info relayUrl, .allowPeer peer, .refresh, .emit .devicePaired],
          .joined conn⟩
  | hostNamed (conn : Connection Id) (info : PairingInfo) (relayUrl : Option String) (peer : Id)
      (now : UInt64) (hFirst : messages.head? = some (.pairingInfo info))
      (hPeer : acceptedPeer conn.keying info = some peer) :
      PairingRead messages
        ⟨[.store (.remember (deviceOfInfo info now relayUrl)) .propagate, .allowPeer peer,
          .refresh, .emit .devicePaired], .joined conn⟩
  | done (todo : List (Call Id)) (wait : Wait Id) (hPlain : todo.all Call.isPlain)
      (hWait : wait.isEarly = false) : PairingRead messages ⟨todo, wait⟩

omit [EndpointKeys Id] in
theorem Call.isPlain_of_isUnpairing {call : Call Id} (h : call.isUnpairing) : call.isPlain := by
  cases call <;> first | rfl | cases h

/-- What a store result pushes is plain. -/
theorem StoreCont.resume_plain {todo : List (Call Id)} (wait : Wait Id) (cont : StoreCont Id)
    (reply : Except String (Option PairedDevice)) (hPlain : todo.all Call.isPlain) :
    cont.resume todo wait reply = Task.returned false ∨
      ∃ todo', cont.resume todo wait reply = ⟨todo', wait⟩ ∧ todo'.all Call.isPlain := by
  rcases cont.resume_eq todo wait reply with ⟨_, hStop⟩ | ⟨pushed, hNext, hPushed⟩
  · exact Or.inl hStop
  · refine Or.inr ⟨_, hNext, ?_⟩
    rw [List.all_append, hPlain, Bool.and_true, List.all_eq_true]
    intro call hCall
    exact Call.isPlain_of_isUnpairing (List.all_eq_true.mp hPushed call hCall)

/-- No single call begins the messages of a pairing. -/
theorem Call.Moves.not_isLate {n : Node Id} {fresh : Nat} {wait : Wait Id}
    {rest : List (Call Id)} {call : Call Id} {task' : Task Id}
    (h : call.Moves n fresh wait rest task') (hWait : wait.isLate = false) :
    task'.wait.isLate = false := by
  cases h with
  | completed conn s info now hPairing => rw [hPairing] at hWait; cases hWait
  | invited conn other s invite hPairing => rw [hPairing] at hWait; cases hWait
  | storeKept op cont reply | storeWritten op base cont reply =>
      rcases cont.resume_eq rest wait reply with ⟨_, hNext⟩ | ⟨pushed, hNext, _⟩
      · rw [hNext]
        rfl
      · rw [hNext]
        exact hWait
  | stopped => rfl
  | gatePaired | gatePassed | connecting => rfl
  | _ => exact hWait

/-- A plain call of a plain task leads to one, unless it completes a pairing. -/
theorem Call.Moves.plain {n : Node Id} {fresh : Nat} {wait : Wait Id} {rest : List (Call Id)}
    {call : Call Id} {task' : Task Id} (h : call.Moves n fresh wait rest task')
    (hCall : call.isPlain) (hRest : rest.all Call.isPlain) :
    (∃ conn s info now, wait = .pairing conn s ∧ s.remoteInfo = some info ∧
        task' = pairingCompleted conn info now n.homeRelayUrl) ∨
      (∃ conn s, wait = .pairing conn s ∧ task'.todo.all Call.isPlain ∧
        task'.wait = .pairing conn { s with inviteReceived := true }) ∨
      (task'.todo.all Call.isPlain ∧
        (task'.wait = wait ∨ (task'.wait.isEarly = false ∧ task'.wait.isLate = false))) := by
  cases h with
  | onward => exact Or.inr (Or.inr ⟨hRest, Or.inl rfl⟩)
  | stopped => exact Or.inr (Or.inr ⟨rfl, Or.inr ⟨rfl, rfl⟩⟩)
  | gateRead => cases hCall
  | gatePaired => cases hCall
  | gatePassed => cases hCall
  | completed conn s info now hWait hInfo _ =>
      exact Or.inl ⟨conn, s, info, now, hWait, hInfo, rfl⟩
  | invited conn other s invite hWait _ =>
      exact Or.inr (Or.inl ⟨other, s, hWait, by simpa [isPlain] using hRest, rfl⟩)
  | storeKept op cont reply =>
      rcases StoreCont.resume_plain wait cont reply hRest with hStop | ⟨todo', hNext, hPlain⟩
      · exact Or.inr (Or.inr (by rw [hStop]; exact ⟨rfl, Or.inr ⟨rfl, rfl⟩⟩))
      · exact Or.inr (Or.inr (by rw [hNext]; exact ⟨hPlain, Or.inl rfl⟩))
  | storeWritten op base cont reply =>
      rcases StoreCont.resume_plain wait cont reply hRest with hStop | ⟨todo', hNext, hPlain⟩
      · exact Or.inr (Or.inr (by rw [hStop]; exact ⟨rfl, Or.inr ⟨rfl, rfl⟩⟩))
      · exact Or.inr (Or.inr (by rw [hNext]; exact ⟨hPlain, Or.inl rfl⟩))
  | remembering => cases hCall
  | connecting => exact Or.inr (Or.inr ⟨hRest, Or.inr ⟨rfl, rfl⟩⟩)
  | _ => exact Or.inr (Or.inr ⟨by simpa [isPlain] using hRest, Or.inl rfl⟩)

/-- Recognition is answered without admitting anybody. -/
theorem onRecognition_plain (conn : Connection Id) (signature : String) :
    (onRecognition conn signature).all Call.isPlain := by
  unfold onRecognition
  split <;> rfl

/-- Forget is answered without admitting anybody. -/
theorem onForget_plain (conn : Connection Id) (signature : String) (paired : Bool) :
    (onForget conn signature paired).all Call.isPlain := by
  unfold onForget
  split <;> rfl

/-- The paired loop admits nobody. -/
theorem onPairedMessage_plain (conn : Connection Id) (m : ControlMessage) :
    (onPairedMessage conn m).todo.all Call.isPlain ∧
      (onPairedMessage conn m).wait.isEarly = false ∧
      (onPairedMessage conn m).wait.isLate = false := by
  cases m with
  | recognition signature => exact ⟨onRecognition_plain conn signature, rfl, rfl⟩
  | forget signature =>
      unfold onPairedMessage
      dsimp only
      split
      · exact ⟨by rw [List.all_append, onForget_plain]; rfl, rfl, rfl⟩
      · exact ⟨rfl, rfl, rfl⟩
  | _ => exact ⟨rfl, rfl, rfl⟩

/-- The outbound loop admits nobody. -/
theorem onOutboundMessage_plain (endpointId : String) (relayUrl : Option String)
    (conn : Connection Id) (m : ControlMessage) :
    (onOutboundMessage endpointId relayUrl conn m).todo.all Call.isPlain ∧
      (onOutboundMessage endpointId relayUrl conn m).wait.isEarly = false ∧
      (onOutboundMessage endpointId relayUrl conn m).wait.isLate = false := by
  cases m with
  | recognition signature => exact ⟨onRecognition_plain conn signature, rfl, rfl⟩
  | _ => exact ⟨rfl, rfl, rfl⟩

namespace Wait
variable {n : Node Id} {wait : Wait Id} {input : Input} {task' : Task Id}

/-- A session's pairing begins at its stream or at its first message. -/
theorem resume_of_not_isLate (h : wait.resume n input = some task') (hWait : wait.isLate = false) :
    task'.wait.isLate = false ∨
      (∃ conn, wait = .acceptBi conn ∧ (∀ m, input ≠ .message m) ∧
        task' = ⟨[.send (.pairingInfo (ourInfo n.identity conn.keying)) true],
          .pairing conn PairingSession.fresh⟩) ∨
      (∃ conn relayUrl m, wait = .joinRead conn relayUrl ∧ input = .message m ∧
        task' = onHostInfo conn relayUrl m) := by
  cases wait <;> cases hWait
  all_goals cases input <;>
    simp only [Wait.resume, reduceCtorEq, Option.some.injEq, Option.map_eq_some_iff] at h
  case acceptBi.refl.go conn now => exact Or.inr (Or.inl ⟨conn, rfl, by simp, h.symm⟩)
  case joinRead.refl.message conn relayUrl m =>
    exact Or.inr (Or.inr ⟨conn, relayUrl, m, rfl, rfl, h.symm⟩)
  all_goals left
  case pairedRead.refl.message conn m => rw [← h]; exact (onPairedMessage_plain conn m).2.2
  case outboundRead.refl.message endpointId relayUrl conn m =>
    rw [← h]
    exact (onOutboundMessage_plain endpointId relayUrl conn m).2.2
  case supervising.refl.go now =>
    split at h
    all_goals
      cases h
      rfl
  case connecting.refl.connected | notifyWait.refl.go =>
    obtain ⟨_, _, rfl⟩ := h
    rfl
  all_goals
    subst h
    rfl

/-- Past the first message of a pairing every answer leads to plain calls. -/
theorem resume_of_not_isEarly (h : wait.resume n input = some task')
    (hWait : wait.isEarly = false) :
    task'.todo.all Call.isPlain ∧ task'.wait.isEarly = false := by
  cases wait <;> cases hWait
  all_goals cases input <;>
    simp only [Wait.resume, reduceCtorEq, Option.some.injEq, Option.map_eq_some_iff] at h
  case pairedRead.refl.message conn m =>
    rw [← h]
    exact ⟨(onPairedMessage_plain conn m).1, (onPairedMessage_plain conn m).2.1⟩
  case outboundRead.refl.message endpointId relayUrl conn m =>
    rw [← h]
    exact ⟨(onOutboundMessage_plain endpointId relayUrl conn m).1,
      (onOutboundMessage_plain endpointId relayUrl conn m).2.1⟩
  case supervising.refl.go now =>
    split at h
    all_goals
      cases h
      exact ⟨rfl, rfl⟩
  case connecting.refl.connected | notifyWait.refl.go =>
    obtain ⟨_, _, rfl⟩ := h
    exact ⟨rfl, rfl⟩
  case notifyConnect.refl.connected fallbackPresence _ _ _ =>
    subst h
    cases fallbackPresence <;> exact ⟨rfl, rfl⟩
  all_goals
    subst h
    exact ⟨rfl, rfl⟩

end Wait

namespace PairingRead
variable {messages : List ControlMessage}

/-- One message more, for a session in its loop. -/
theorem onPairingMessage (conn : Connection Id) (s : PairingSession) (m : ControlMessage)
    (hInfo : s.remoteInfo = lastAccepted Id conn.keying messages) :
    PairingRead (messages ++ [m]) (AltSendme.onPairingMessage conn s m) := by
  unfold AltSendme.onPairingMessage
  cases m with
  | pairingInfo info =>
      cases hPeer : (acceptedPeer conn.keying info : Option Id) with
      | none =>
          simp only [hPeer]
          exact .reading _ conn s rfl (by simp [lastAccepted_append, hPeer, hInfo])
      | some peer =>
          simp only [hPeer]
          exact .reading _ conn _ rfl (by simp [lastAccepted_append, hPeer])
  | recognition signature =>
      refine .reading _ conn s ?_ (by simpa [lastAccepted_append] using hInfo)
      rw [List.all_append, onRecognition_plain]
      rfl
  | forget signature =>
      refine .reading _ conn s ?_ (by simpa [lastAccepted_append] using hInfo)
      rw [List.all_append, onForget_plain]
      rfl
  | _ => exact .reading _ conn _ rfl (by simpa [lastAccepted_append] using hInfo)

/-- A joiner admits what the one message it has read says. -/
theorem onHostInfo (conn : Connection Id) (relayUrl : Option String) (m : ControlMessage) :
    PairingRead [m] (AltSendme.onHostInfo conn relayUrl m) := by
  unfold AltSendme.onHostInfo
  cases m with
  | pairingInfo info =>
      cases hPeer : (acceptedPeer conn.keying info : Option Id) with
      | none =>
          simp only [hPeer]
          exact .done _ _ rfl rfl
      | some peer =>
          simp only [hPeer]
          exact .hostFound conn info relayUrl peer rfl hPeer
  | _ => exact .done _ _ rfl rfl

/-- A task that wakes up has read what its input says. -/
theorem resume {n : Node Id} {task task' : Task Id} {input : Input}
    (hRead : PairingRead messages task) (hTodo : task.todo = [])
    (h : task.wait.resume n input = some task') :
    PairingRead (readsAfter messages input) task' := by
  cases hRead with
  | unread todo wait hNone hWait =>
      subst hNone
      cases hInput : input with
      | message m =>
          subst hInput
          cases hEarly : wait.isEarly with
          | false =>
              obtain ⟨hPlain, hEnd⟩ := Wait.resume_of_not_isEarly h hEarly
              exact .done task'.todo task'.wait hPlain hEnd
          | true =>
              cases wait <;> cases hEarly <;> cases hWait <;>
                simp only [Wait.resume, reduceCtorEq, Option.some.injEq] at h
              rw [← h]
              exact onHostInfo _ _ m
      | _ =>
          subst hInput
          rcases Wait.resume_of_not_isLate h hWait with hLate | ⟨conn, _, _, rfl⟩ |
            ⟨_, _, _, _, hMessage, _⟩
          · exact .unread task'.todo task'.wait rfl hLate
          · exact .reading _ conn PairingSession.fresh rfl rfl
          · cases hMessage
  | reading todo conn s _ hInfo =>
      cases input <;> simp only [Wait.resume, reduceCtorEq, Option.some.injEq] at h
      case message m =>
        rw [← h]
        exact onPairingMessage conn s m hInfo
      case closed =>
        rw [← h]
        refine .done _ _ ?_ ?_
        · split <;> rfl
        · split <;> rfl
  | completed => cases hTodo
  | hostFound => cases hTodo
  | hostNamed => cases hTodo
  | done todo wait _ hWait =>
      obtain ⟨hPlain, hEarly⟩ := Wait.resume_of_not_isEarly h hWait
      exact .done task'.todo task'.wait hPlain hEarly

/-- Working off a call keeps what a task admits to what it has read. -/
theorem moves {n : Node Id} {fresh : Nat} {wait : Wait Id} {call : Call Id} {rest : List (Call Id)}
    {task' : Task Id} (hRead : PairingRead messages ⟨call :: rest, wait⟩)
    (h : call.Moves n fresh wait rest task') : PairingRead messages task' := by
  cases hRead with
  | unread _ _ hNone hWait =>
      exact .unread task'.todo task'.wait hNone (h.not_isLate hWait)
  | reading _ conn s hPlain hInfo =>
      rw [List.all_cons, Bool.and_eq_true] at hPlain
      rcases h.plain hPlain.1 hPlain.2 with ⟨_, _, info, now, hWait, hSome, rfl⟩ |
        ⟨_, _, hWait, hNext, hStay⟩ | ⟨hNext, hStay | ⟨hEarly, _⟩⟩
      · cases hWait
        exact .completed conn info now _ (by rw [← hInfo, hSome])
      · cases hWait
        obtain ⟨todo', wait'⟩ := task'
        obtain rfl := hStay
        exact .reading todo' conn _ hNext hInfo
      · obtain ⟨todo', wait'⟩ := task'
        obtain rfl := hStay
        exact .reading todo' conn s hNext hInfo
      · exact .done task'.todo task'.wait hNext hEarly
  | completed conn info now homeRelayUrl hInfo =>
      cases h with
      | onward | storeRead => exact .done _ _ rfl rfl
      | stopped => exact .done _ _ rfl rfl
      | storeKept => exact .done _ _ rfl rfl
  | hostFound conn info relayUrl peer hFirst hPeer =>
      cases h with
      | onward => exact .done _ _ rfl rfl
      | stopped => exact .done _ _ rfl rfl
      | remembering _ _ now => exact .hostNamed conn info relayUrl peer now hFirst hPeer
  | hostNamed conn info relayUrl peer now hFirst hPeer =>
      cases h with
      | onward | storeRead => exact .done _ _ rfl rfl
      | stopped => exact .done _ _ rfl rfl
      | storeKept _ _ reply =>
          cases reply <;> exact .done _ _ rfl rfl
  | done _ _ hPlain hWait =>
      rw [List.all_cons, Bool.and_eq_true] at hPlain
      rcases h.plain hPlain.1 hPlain.2 with ⟨_, _, _, _, rfl, _, _⟩ | ⟨_, _, rfl, _, _⟩ |
        ⟨hNext, hStay | ⟨hEarly, _⟩⟩
      · cases hWait
      · cases hWait
      · exact .done task'.todo task'.wait hNext (by rw [hStay]; exact hWait)
      · exact .done task'.todo task'.wait hNext hEarly

/-- What a session about to remember has read. -/
theorem admission {task : Task Id} {a : Admission Id} (h : PairingRead messages task)
    (hAdmission : task.admission = some a) :
    ∃ info, decidingInfo a.role a.conn messages = some info ∧
      a.device.endpointId = info.endpointId ∧
      (a.peer = a.conn.remote ∨ fromStr info.endpointId = some a.peer) := by
  obtain ⟨cont, rest, hTodo, hEnd⟩ := Task.admission_eq_some hAdmission
  cases h with
  | unread todo wait _ hWait =>
      rcases hEnd with rfl | rfl <;> cases hWait
  | reading todo conn s =>
      rcases hEnd with hEnd | hEnd <;> cases hEnd
  | completed conn info now homeRelayUrl hInfo =>
      obtain rfl := Option.some.inj hAdmission
      exact ⟨info, hInfo, rfl, Or.inl rfl⟩
  | hostFound => cases hTodo
  | hostNamed conn info relayUrl peer now hFirst hPeer =>
      obtain rfl := Option.some.inj hAdmission
      refine ⟨info, ?_, rfl, Or.inr (acceptedPeer_eq_some.mp hPeer).1⟩
      simp only [decidingInfo, hFirst]
  | done todo wait hPlain =>
      obtain rfl := hTodo
      cases hPlain

end PairingRead

variable [DecidableEq Id]

/-- A turn keeps what the messages say about its task. -/
theorem PairingRead.turn {messages : List ControlMessage} {n n' : Node Id} {self fresh : Nat}
    {task task' : Task Id} {input : Input} {spawned : List (Task Id)}
    (hRead : PairingRead messages task)
    (h : task.turn n self fresh input = some (n', task', spawned)) :
    PairingRead (readsAfter messages input) task' := by
  rcases Task.turn_eq_some h with ⟨rfl, _, _, rfl, _⟩ | ⟨hTodo, _, _, hNext⟩ |
    ⟨call, rest, hTodo, hExec⟩
  · exact .done [] (.returned false) rfl rfl
  · exact hRead.resume hTodo hNext
  · have hSame : readsAfter messages input = messages := by
      cases input with
      | message m => cases call <;> cases hExec
      | _ => rfl
    obtain ⟨todo, wait⟩ := task
    obtain rfl := hTodo
    rw [hSame]
    exact hRead.moves (Call.exec_moves hExec)

/-- Every task of a run, and every handle not yet given out. -/
def PairingReads (ls : List (NodeLabel Id)) (c : NodeConfig Id) : Prop :=
  (∀ t task, c.tasks[t]? = some task → PairingRead (reads t ls) task) ∧
    ∀ t, c.tasks.length ≤ t → reads t ls = []

omit [EndpointKeys Id] [DecidableEq Id] in
theorem Wait.isLate_of_isFirst {wait : Wait Id} (h : wait.isFirst) : wait.isLate = false := by
  cases wait <;> first | rfl | cases h

omit [DecidableEq Id] in
/-- A new task has read nothing. -/
theorem NewTask.pairingRead {task : Task Id} (h : NewTask task) : PairingRead [] task :=
  .unread task.todo task.wait rfl (Wait.isLate_of_isFirst h.isFirst.2)

/-- One step keeps what every task admits to what it has read. -/
theorem pairingReads_step {restart : Restart Id} {file : List PairedDevice}
    (ls : List (NodeLabel Id)) (c : NodeConfig Id) (l : NodeLabel Id) (d : NodeConfig Id)
    (_ : exec step (started restart file) ls = some c) (hReads : PairingReads ls c)
    (hStep : step c l = some d) : PairingReads (ls ++ [l]) d := by
  obtain ⟨hTasks, hFresh⟩ := hReads
  cases l with
  | call command =>
      obtain rfl := Option.some.inj hStep
      refine ⟨?_, ?_⟩
      · intro t task hTask
        rw [reads_call]
        rcases Execution.Pool.getElem?_after_call hTask with hOld | ⟨rfl, rfl⟩
        · exact hTasks t task hOld
        · rw [hFresh _ (Nat.le_refl _)]
          exact (NewTask.command command).pairingRead
      · intro t ht
        rw [reads_call]
        exact hFresh t (by simp at ht; omega)
  | restart restart =>
      obtain rfl := Option.some.inj hStep
      refine ⟨?_, fun t _ => reads_restart t ls restart⟩
      intro t task hTask
      rw [reads_restart]
      exact (restarted_new restart c.shared hTask).pairingRead
  | turn u input =>
      obtain ⟨task, shared, task', spawned, hTask, hTurn, rfl⟩ :=
        (Execution.Pool.next_turn_eq_some _).mp hStep
      have hu : u < c.tasks.length := (List.getElem?_eq_some_iff.mp hTask).1
      refine ⟨?_, ?_⟩
      · intro t found hFound
        rw [reads_turn]
        rcases Execution.Pool.getElem?_after_turn hFound with ⟨rfl, _, rfl⟩ | ⟨hne, hOld⟩ |
          ⟨hLength, hNew⟩
        · rw [if_pos rfl]
          exact (hTasks _ _ hTask).turn hTurn
        · rw [if_neg (Ne.symm hne)]
          exact hTasks t found hOld
        · rw [if_neg (by omega), hFresh t hLength]
          exact (Task.spawned_new hTurn hNew).pairingRead
      · intro t ht
        have hLength : c.tasks.length ≤ t := by simp at ht; omega
        rw [reads_turn, if_neg (by omega)]
        exact hFresh t hLength

/-- What is remembered is bound to the connection exactly when one message of
the peer says so: the last accepted info of a host's session, the first message
a joiner reads. -/
theorem admission_bound_iff {restart : Restart Id} {file : List PairedDevice}
    {ls : List (NodeLabel Id)} {c : NodeConfig Id} {t : Nat} {task : Task Id} {a : Admission Id}
    (hRun : exec step (started restart file) ls = some c) (hTask : c.tasks[t]? = some task)
    (hAdmission : task.admission = some a) :
    a.Bound ↔ ∃ info, decidingInfo a.role a.conn (reads t ls) = some info ∧
      fromStr info.endpointId = some a.conn.remote := by
  have hReads : PairingReads ls c := by
    refine exec_history ⟨?_, fun _ _ => rfl⟩ pairingReads_step hRun
    intro t task hTask
    exact (started_new hTask).pairingRead
  obtain ⟨info, hInfo, hDevice, hPeer⟩ := (hReads.1 t task hTask).admission hAdmission
  constructor
  · rintro ⟨hRecord, _⟩
    exact ⟨info, hInfo, hDevice ▸ hRecord⟩
  · rintro ⟨claimed, hClaimed, hRemote⟩
    obtain rfl := Option.some.inj (hInfo.symm.trans hClaimed)
    refine ⟨hDevice ▸ hRemote, ?_⟩
    rcases hPeer with hSame | hParsed
    · exact hSame
    · exact Option.some.inj (hParsed.symm.trans hRemote)

section Devices

def desktop (id : HexId) : DeviceIdentity HexId := ⟨id, "desktop", "desktop", "linux"⟩

def inboundFrom (remote : HexId) : Connection HexId := ⟨0, remote, [1, 2, 3], "s"⟩

/-- Alice's window is open; `remote` connects, sends `info` and its vote. -/
def pairingRun (remote : HexId) (info : PairingInfo) : List (NodeLabel HexId) :=
  [.call (.startPairingHost none)] ++ goes 1 7 ++ [.call (.inbound (inboundFrom remote))] ++
    goes 2 5 ++ [.turn 2 (.message (.pairingInfo info))] ++ goes 2 1 ++
    [.turn 2 (.message (.rememberVote "s" .remember))] ++ goes 2 1

/-- A peer under its own id is remembered as itself. -/
theorem admission_bound_of_own_info : ∃ c task a,
    exec step (started (.onIdentity (desktop alice)) [])
        (pairingRun bob (ourInfo (desktop bob) [1, 2, 3])) = some c ∧
      c.tasks[2]? = some task ∧ task.admission = some a ∧ a.Bound := by
  have hRuns : ∃ c, exec step (started (.onIdentity (desktop alice)) [])
        (pairingRun bob (ourInfo (desktop bob) [1, 2, 3])) = some c ∧
      ∃ task, c.tasks[2]? = some task ∧ ∃ a, task.admission = some a ∧
        a = ⟨.host, inboundFrom bob, deviceOfInfo (ourInfo (desktop bob) [1, 2, 3]) 0 none, bob⟩ := by
    decide +kernel
  obtain ⟨c, hRun, task, hTask, a, hAdmission, rfl⟩ := hRuns
  refine ⟨c, task, _, hRun, hTask, hAdmission, ?_⟩
  refine (admission_bound_iff hRun hTask hAdmission).mpr
    ⟨ourInfo (desktop bob) [1, 2, 3], ?_, EndpointKeys.fromStr_toStr bob⟩
  decide +kernel

/-- Mallory returns Alice's own signed info, and Alice remembers herself. -/
theorem reflected_info_not_bound : ∃ c,
    exec step (started (.onIdentity (desktop alice)) [])
        (pairingRun mallory (ourInfo (desktop alice) [1, 2, 3])) = some c ∧
      ∃ task, c.tasks[2]? = some task ∧ ∃ a, task.admission = some a ∧
        a.conn.remote = mallory ∧ a.device.endpointId = toStr alice ∧ ¬ a.Bound := by
  decide +kernel

end Devices

end AltSendme
