import AltSendme.Native.Task

/-! What one turn can do, said once. Every invariant of a node is derived from
these lemmas; none of them looks at the schedule. -/
namespace AltSendme

variable {Id : Type} [EndpointKeys Id]
open EndpointKeys (toStr)

/-- Calls of the body run after a remote `Forget` marked a record. -/
def Call.isUnpairing : Call Id → Bool
  | .disallow _ | .setPresence _ .unpaired | .removeConnectTask _ | .removeSession _
  | .emit (.deviceUnpaired _ _ _) => true
  | _ => false

/-- A store result ends its caller or lets it go on, unpairing first. -/
theorem StoreCont.resume_eq (todo : List (Call Id)) (wait : Wait Id) (cont : StoreCont Id)
    (reply : Except String (Option PairedDevice)) :
    (cont = .propagate ∧ cont.resume todo wait reply = Task.returned false) ∨
      ∃ pushed, cont.resume todo wait reply = ⟨pushed ++ todo, wait⟩ ∧
        pushed.all Call.isUnpairing := by
  unfold StoreCont.resume
  split
  · exact Or.inr ⟨[], rfl, rfl⟩
  · exact Or.inr ⟨[], rfl, rfl⟩
  · exact Or.inl ⟨rfl, rfl⟩
  · next remote paired device =>
      refine Or.inr ⟨onUnpaired remote paired device, rfl, ?_⟩
      cases paired <;> rfl
  · exact Or.inr ⟨[], rfl, rfl⟩

/-- The functions that await. -/
inductive Wait.Kind where
  | hostSession
  | pairedSession
  | joining
  | connectLoop
  | notifying
  | background
  | over
  deriving DecidableEq

namespace Wait

def kind : Wait Id → Kind
  | .acceptBi _ | .pairing _ _ | .holding _ => .hostSession
  | .pairedExport _ | .pairedAccept _ | .pairedRead _ => .pairedSession
  | .joinConnect _ _ | .joinOpen _ _ | .joinRead _ _ | .joined _ => .joining
  | .connecting _ _ | .recognizing _ _ _ | .outboundAccept _ _ _ | .outboundRead _ _ _
  | .backoff _ _ => .connectLoop
  | .notifyWait _ _ _ _ | .notifyConnect _ _ _ _ | .notifyOpen _ => .notifying
  | .sleeping | .supervising | .rebuilding _ => .background
  | .returned _ => .over

end Wait

/-- Calls an answer from outside can lead to. -/
def Call.isAnswer : Call Id → Bool
  | .send _ _ | .afterMessage | .checkInvite _ _ | .emit _ | .emitInviteResponse _ _
  | .store (.markUnpairedRemotely _) (.unpaired _ _) | .touchNow _ | .setPresence _ _
  | .insertSession _ _ | .notifyWaiters _ | .removeSession _ | .rememberHost _ _
  | .allowPeer _ | .refresh | .deviceStillActive _ _ | .setPairingHostOpen false
  | .setPairingHostPersistent false | .setAccessOpen false | .setRelayMode _ => true
  | _ => false

/-- Where an answer from outside can lead. `ended` is every answer after which
a function returns with nothing left to do. -/
inductive Wait.Answers (n : Node Id) : Wait Id → Input → Task Id → Prop where
  | accepted (conn : Connection Id) (now : UInt64) : Answers n (.acceptBi conn) (.go now)
      ⟨[.send (.pairingInfo (ourInfo n.identity conn.keying)) true],
        .pairing conn PairingSession.fresh⟩
  | pairingRead (conn : Connection Id) (s : PairingSession) (m : ControlMessage) :
      Answers n (.pairing conn s) (.message m) (onPairingMessage conn s m)
  | pairingLost (conn : Connection Id) (s : PairingSession) :
      Answers n (.pairing conn s) .closed (pairingLoopEnded conn s)
  | exported (conn : Connection Id) (now : UInt64) :
      Answers n (.pairedExport conn) (.go now) ⟨[], .pairedAccept conn⟩
  | exportFailed (conn : Connection Id) : Answers n (.pairedExport conn) .fail
      ⟨unregisterInbound (toStr conn.remote), .returned false⟩
  | pairedStream (conn : Connection Id) (now : UInt64) :
      Answers n (.pairedAccept conn) (.go now) ⟨[], .pairedRead conn⟩
  | pairedClosed (conn : Connection Id) : Answers n (.pairedAccept conn) .closed
      ⟨unregisterInbound (toStr conn.remote), .returned true⟩
  | pairedRead (conn : Connection Id) (m : ControlMessage) :
      Answers n (.pairedRead conn) (.message m) (onPairedMessage conn m)
  | pairedUnread (conn : Connection Id) :
      Answers n (.pairedRead conn) .fail ⟨[], .pairedAccept conn⟩
  | dialled (remote : Id) (relayUrl : Option String) (keying : List UInt8) (id : Nat)
      (sessionId : String) : Answers n (.joinConnect remote relayUrl)
      (.connected keying id sessionId) ⟨[], .joinOpen ⟨id, remote, keying, sessionId⟩ relayUrl⟩
  | opened (conn : Connection Id) (relayUrl : Option String) (now : UInt64) :
      Answers n (.joinOpen conn relayUrl) (.go now)
        ⟨[.send (.pairingInfo (ourInfo n.identity conn.keying)) true,
          .send (rememberVote conn) true], .joinRead conn relayUrl⟩
  | hostRead (conn : Connection Id) (relayUrl : Option String) (m : ControlMessage) :
      Answers n (.joinRead conn relayUrl) (.message m) (onHostInfo conn relayUrl m)
  | connected (endpointId : String) (relayUrl : Option String) (remote : Id)
      (keying : List UInt8) (id : Nat) (sessionId : String) :
      Answers n (.connecting endpointId relayUrl) (.connected keying id sessionId)
        ⟨[], .recognizing endpointId relayUrl ⟨id, remote, keying, sessionId⟩⟩
  | connectFailed (endpointId : String) (relayUrl : Option String) :
      Answers n (.connecting endpointId relayUrl) .fail
        ⟨[.setPresence endpointId .attemptFailed], .backoff endpointId relayUrl⟩
  | recognized (endpointId : String) (relayUrl : Option String) (conn : Connection Id)
      (now : UInt64) : Answers n (.recognizing endpointId relayUrl conn) (.go now)
      ⟨setSession endpointId.toLowercase conn, .outboundAccept endpointId relayUrl conn⟩
  | recognitionFailed (endpointId : String) (relayUrl : Option String) (conn : Connection Id) :
      Answers n (.recognizing endpointId relayUrl conn) .fail
        ⟨[.setPresence endpointId .attemptFailed], .backoff endpointId relayUrl⟩
  | outboundStream (endpointId : String) (relayUrl : Option String) (conn : Connection Id)
      (now : UInt64) : Answers n (.outboundAccept endpointId relayUrl conn) (.go now)
      ⟨[], .outboundRead endpointId relayUrl conn⟩
  | outboundClosed (endpointId : String) (relayUrl : Option String) (conn : Connection Id) :
      Answers n (.outboundAccept endpointId relayUrl conn) .closed
        ⟨[.removeSession endpointId.toLowercase], .backoff endpointId relayUrl⟩
  | outboundRead (endpointId : String) (relayUrl : Option String) (conn : Connection Id)
      (m : ControlMessage) : Answers n (.outboundRead endpointId relayUrl conn) (.message m)
      (onOutboundMessage endpointId relayUrl conn m)
  | outboundUnread (endpointId : String) (relayUrl : Option String) (conn : Connection Id) :
      Answers n (.outboundRead endpointId relayUrl conn) .fail
        ⟨[], .outboundAccept endpointId relayUrl conn⟩
  | outboundLost (endpointId : String) (relayUrl : Option String) (conn : Connection Id) :
      Answers n (.outboundRead endpointId relayUrl conn) .closed
        ⟨[.removeSession endpointId.toLowercase], .backoff endpointId relayUrl⟩
  | retried (endpointId : String) (relayUrl : Option String) (now : UInt64) :
      Answers n (.backoff endpointId relayUrl) (.go now)
        ⟨[.deviceStillActive endpointId relayUrl], .returned true⟩
  | sessionFound (remote : Id) (endpointId : String) (message : ControlMessage)
      (fallbackPresence : Bool) (now : UInt64) :
      Answers n (.notifyWait remote endpointId message fallbackPresence) (.go now)
        ⟨[], .notifyOpen message⟩
  | waitedOut (remote : Id) (endpointId : String) (message : ControlMessage)
      (fallbackPresence : Bool) :
      Answers n (.notifyWait remote endpointId message fallbackPresence) .closed
        ⟨[], .notifyConnect remote endpointId message fallbackPresence⟩
  | notifyDialled (remote : Id) (endpointId : String) (message : ControlMessage)
      (fallbackPresence : Bool) (keying : List UInt8) (id : Nat) (sessionId : String) :
      Answers n (.notifyConnect remote endpointId message fallbackPresence)
        (.connected keying id sessionId)
        ⟨if fallbackPresence then [.touchNow endpointId, .setPresence endpointId .inviteFallback]
          else [], .notifyOpen message⟩
  | notifyOpened (message : ControlMessage) (now : UInt64) :
      Answers n (.notifyOpen message) (.go now) ⟨[.send message true], .returned true⟩
  | expired (now : UInt64) : Answers n .sleeping (.go now)
      ⟨[.setPairingHostOpen false, .setPairingHostPersistent false, .setAccessOpen false,
        .emit .pairingHostExpired], .returned true⟩
  | supervised (now : UInt64) : Answers n .supervising (.go now) ⟨[.refresh], .supervising⟩
  | rebuilt (relayMode : String) (now : UInt64) : Answers n (.rebuilding relayMode) (.go now)
      ⟨[.refresh, .setRelayMode relayMode], .returned true⟩
  | ended (wait : Wait Id) (input : Input) (ok : Bool)
      (hKind : wait.kind = .hostSession ∨ wait.kind = .joining ∨ wait.kind = .notifying ∨
        wait.kind = .background) (hRead : ∀ m, input ≠ .message m) :
      Answers n wait input (Task.returned ok)

/-- A wait that resumes answers the input it was given. -/
theorem Wait.resume_answers {n : Node Id} {wait : Wait Id} {input : Input} {task' : Task Id}
    (h : wait.resume n input = some task') : wait.Answers n input task' := by
  cases wait <;> cases input <;>
    simp only [Wait.resume, reduceCtorEq, Option.some.injEq, Option.map_eq_some_iff] at h
  case connecting.connected | notifyWait.go =>
    obtain ⟨_, _, rfl⟩ := h
    constructor
  case supervising.go =>
    split at h
    · cases h
      exact .ended _ _ true (by simp [kind]) nofun
    · cases h
      exact .supervised _
  all_goals subst h
  all_goals first
    | exact .ended _ _ _ (by simp [kind]) nofun
    | constructor

section Answers
variable {n : Node Id} (conn : Connection Id) (m : ControlMessage)

/-- Recognition is answered by plain calls. -/
theorem onRecognition_isAnswer (signature : String) :
    (onRecognition conn signature).all Call.isAnswer := by
  unfold onRecognition
  split <;> rfl

/-- Forget is answered by plain calls. -/
theorem onForget_isAnswer (signature : String) (paired : Bool) :
    (onForget conn signature paired).all Call.isAnswer := by
  unfold onForget
  split <;> rfl

/-- The pairing loop answers by plain calls and goes on pairing. -/
theorem onPairingMessage_isAnswer (s : PairingSession) :
    (onPairingMessage conn s m).todo.all Call.isAnswer ∧
      ∃ s', (onPairingMessage conn s m).wait = .pairing conn s' := by
  cases m with
  | pairingInfo info =>
      unfold onPairingMessage
      dsimp only
      split <;> exact ⟨rfl, _, rfl⟩
  | recognition signature =>
      exact ⟨by rw [onPairingMessage, List.all_append, onRecognition_isAnswer]; rfl, _, rfl⟩
  | forget signature =>
      exact ⟨by rw [onPairingMessage, List.all_append, onForget_isAnswer]; rfl, _, rfl⟩
  | _ => exact ⟨rfl, _, rfl⟩

/-- The paired loop answers by plain calls and waits for the next message or ends. -/
theorem onPairedMessage_isAnswer :
    (onPairedMessage conn m).todo.all Call.isAnswer ∧
      ((onPairedMessage conn m).wait = .pairedAccept conn ∨
        (onPairedMessage conn m).wait = .returned true) := by
  cases m with
  | recognition signature => exact ⟨onRecognition_isAnswer conn signature, Or.inl rfl⟩
  | forget signature =>
      unfold onPairedMessage
      dsimp only
      split
      · exact ⟨by rw [List.all_append, onForget_isAnswer]; rfl, Or.inr rfl⟩
      · exact ⟨rfl, Or.inl rfl⟩
  | _ => exact ⟨rfl, Or.inl rfl⟩

/-- The outbound loop answers by plain calls and waits for the next message. -/
theorem onOutboundMessage_isAnswer (endpointId : String) (relayUrl : Option String) :
    (onOutboundMessage endpointId relayUrl conn m).todo.all Call.isAnswer ∧
      (onOutboundMessage endpointId relayUrl conn m).wait =
        .outboundAccept endpointId relayUrl conn := by
  cases m with
  | recognition signature => exact ⟨onRecognition_isAnswer conn signature, rfl⟩
  | _ => exact ⟨rfl, rfl⟩

/-- A joiner answers by plain calls and has joined or given up. -/
theorem onHostInfo_isAnswer (relayUrl : Option String) :
    (onHostInfo conn relayUrl m).todo.all Call.isAnswer ∧
      ((onHostInfo conn relayUrl m).wait = .joined conn ∨
        (onHostInfo conn relayUrl m).wait = .returned false) := by
  cases m with
  | pairingInfo info =>
      unfold onHostInfo
      dsimp only
      split
      · exact ⟨rfl, Or.inr rfl⟩
      · exact ⟨rfl, Or.inl rfl⟩
  | _ => exact ⟨rfl, Or.inr rfl⟩

/-- An answer keeps a task in its function, or returns from it. -/
theorem Wait.resume_kind {wait : Wait Id} {input : Input} {task' : Task Id}
    (h : wait.resume n input = some task') :
    task'.todo.all Call.isAnswer ∧
      (task'.wait.kind = wait.kind ∨ ∃ ok, task'.wait = .returned ok) := by
  cases Wait.resume_answers h with
  | pairingRead conn s m =>
      obtain ⟨hTodo, s', hWait⟩ := onPairingMessage_isAnswer conn m s
      exact ⟨hTodo, Or.inl (by rw [hWait]; rfl)⟩
  | pairingLost conn s =>
      unfold pairingLoopEnded
      dsimp only
      refine ⟨by split <;> rfl, ?_⟩
      split
      · exact Or.inl rfl
      · exact Or.inr ⟨true, rfl⟩
  | pairedRead conn m =>
      obtain ⟨hTodo, hWait | hWait⟩ := onPairedMessage_isAnswer conn m
      · exact ⟨hTodo, Or.inl (by rw [hWait]; rfl)⟩
      · exact ⟨hTodo, Or.inr ⟨true, hWait⟩⟩
  | outboundRead endpointId relayUrl conn m =>
      obtain ⟨hTodo, hWait⟩ := onOutboundMessage_isAnswer conn m endpointId relayUrl
      exact ⟨hTodo, Or.inl (by rw [hWait]; rfl)⟩
  | hostRead conn relayUrl m =>
      obtain ⟨hTodo, hWait | hWait⟩ := onHostInfo_isAnswer conn m relayUrl
      · exact ⟨hTodo, Or.inl (by rw [hWait]; rfl)⟩
      · exact ⟨hTodo, Or.inr ⟨false, hWait⟩⟩
  | notifyDialled remote endpointId message fallbackPresence =>
      cases fallbackPresence <;> exact ⟨rfl, Or.inl rfl⟩
  | exportFailed | pairedClosed | retried | notifyOpened | expired | rebuilt | ended =>
      exact ⟨rfl, Or.inr ⟨_, rfl⟩⟩
  | _ => exact ⟨rfl, Or.inl rfl⟩

end Answers

namespace Call

/-- Calls whose caller may return at once: a refused check, or an error that
`?` passes on. -/
def mayStop : Call Id → Bool
  | .afterHandshake _ | .readAllowed _ _ | .requireAllowed _ | .send _ true | .getDevice _
  | .deviceStillActive _ _ | .checkRelayMode _ => true
  | _ => false

/-- Where a task can stand after its first call, in the state `n` it made the
call in. -/
inductive Moves (n : Node Id) (fresh : Nat) (wait : Wait Id) (rest : List (Call Id)) :
    Call Id → Task Id → Prop where
  | onward (call : Call Id)
      (hPersistent : call = .closeUnlessPersistent → n.pairingHostPersistent = true) :
      Moves n fresh wait rest call ⟨rest, wait⟩
  | stopped (call : Call Id) (ok : Bool) (hStop : call.mayStop = true) :
      Moves n fresh wait rest call (Task.returned ok)
  | gateRead (conn : Connection Id) : Moves n fresh wait rest (.readPairingHostOpen conn)
      ⟨.readAllowed conn n.access.pairingHostOpen :: rest, wait⟩
  | gatePaired (conn : Connection Id) (isOpen : Bool) (hAllowed : conn.remote ∈ n.access.allowed) :
      Moves n fresh wait rest (.readAllowed conn isOpen)
        ⟨registerInbound (toStr conn.remote) conn ++ rest, .pairedExport conn⟩
  | gatePassed (conn : Connection Id) (hUnknown : conn.remote ∉ n.access.allowed) :
      Moves n fresh wait rest (.readAllowed conn true) ⟨rest, .acceptBi conn⟩
  | completed (conn : Connection Id) (s : PairingSession) (info : PairingInfo) (now : UInt64)
      (hWait : wait = .pairing conn s) (hInfo : s.remoteInfo = some info)
      (hVote : s.remoteVote = some .remember) :
      Moves n fresh wait rest .afterMessage (pairingCompleted conn info now n.homeRelayUrl)
  | invited (conn other : Connection Id) (s : PairingSession) (invite : Invite)
      (hWait : wait = .pairing other s) (hAllowed : conn.remote ∈ n.access.allowed) :
      Moves n fresh wait rest (.checkInvite conn invite)
        ⟨.emit (.pairedInviteReceived (toStr conn.remote) invite) :: .afterMessage :: rest,
          .pairing other { s with inviteReceived := true }⟩
  | storeRead (op : StoreOp) (cont : StoreCont Id) :
      Moves n fresh wait rest (.store op cont) ⟨.storeWrite op n.file cont :: rest, wait⟩
  | storeKept (op : StoreOp) (cont : StoreCont Id)
      (reply : Except String (Option PairedDevice)) :
      Moves n fresh wait rest (.store op cont) (cont.resume rest wait reply)
  | storeWritten (op : StoreOp) (base : List PairedDevice) (cont : StoreCont Id)
      (reply : Except String (Option PairedDevice)) :
      Moves n fresh wait rest (.storeWrite op base cont) (cont.resume rest wait reply)
  | touching (endpointId : String) (now : UInt64) :
      Moves n fresh wait rest (.touchNow endpointId)
        ⟨.store (.touch endpointId now) .ignore :: rest, wait⟩
  | remembering (info : PairingInfo) (relayUrl : Option String) (now : UInt64) :
      Moves n fresh wait rest (.rememberHost info relayUrl)
        ⟨.store (.remember (deviceOfInfo info now relayUrl)) .propagate :: rest, wait⟩
  | closing (hTimed : n.pairingHostPersistent = false) :
      Moves n fresh wait rest .closeUnlessPersistent ⟨.setAccessOpen false :: rest, wait⟩
  | expiring : Moves n fresh wait rest .spawnExpireTask ⟨.putExpireTask fresh :: rest, wait⟩
  | sessionRemoved (key : String) :
      Moves n fresh wait rest (.removeSession key) ⟨.setPresence key .sessionRemoved :: rest, wait⟩
  | refreshing : Moves n fresh wait rest .refresh
      ⟨.refreshTasks (n.file.filter (·.pairingStatus.isConnectable)) :: rest, wait⟩
  | connecting (endpointId : String) (relayUrl : Option String) :
      Moves n fresh wait rest (.deviceStillActive endpointId relayUrl)
        ⟨rest, .connecting endpointId relayUrl⟩

/-- The calls a call can put in its own place. -/
inductive Pushes (n : Node Id) (fresh : Nat) : Call Id → Call Id → Prop where
  | gate (conn : Connection Id) : Pushes n fresh (.readPairingHostOpen conn)
      (.readAllowed conn n.access.pairingHostOpen)
  | registered (conn : Connection Id) (isOpen : Bool) (c : Call Id)
      (h : c ∈ registerInbound (toStr conn.remote) conn) :
      Pushes n fresh (.readAllowed conn isOpen) c
  | invited (conn : Connection Id) (invite : Invite) (h : conn.remote ∈ n.access.allowed) :
      Pushes n fresh (.checkInvite conn invite)
        (.emit (.pairedInviteReceived (toStr conn.remote) invite))
  | checked (conn : Connection Id) (invite : Invite) :
      Pushes n fresh (.checkInvite conn invite) .afterMessage
  | write (op : StoreOp) (cont : StoreCont Id) :
      Pushes n fresh (.store op cont) (.storeWrite op n.file cont)
  | unpairedKept (op : StoreOp) (cont : StoreCont Id) (c : Call Id) (h : c.isUnpairing = true) :
      Pushes n fresh (.store op cont) c
  | unpaired (op : StoreOp) (base : List PairedDevice) (cont : StoreCont Id) (c : Call Id)
      (h : c.isUnpairing = true) : Pushes n fresh (.storeWrite op base cont) c
  | touch (endpointId : String) (now : UInt64) :
      Pushes n fresh (.touchNow endpointId) (.store (.touch endpointId now) .ignore)
  | remember (info : PairingInfo) (relayUrl : Option String) (now : UInt64) :
      Pushes n fresh (.rememberHost info relayUrl)
        (.store (.remember (deviceOfInfo info now relayUrl)) .propagate)
  | close (hTimed : n.pairingHostPersistent = false) :
      Pushes n fresh .closeUnlessPersistent (.setAccessOpen false)
  | expiry : Pushes n fresh .spawnExpireTask (.putExpireTask fresh)
  | presence (key : String) :
      Pushes n fresh (.removeSession key) (.setPresence key .sessionRemoved)
  | tasks : Pushes n fresh .refresh
      (.refreshTasks (n.file.filter (·.pairingStatus.isConnectable)))

section
variable {n : Node Id} {fresh : Nat} {wait : Wait Id} {rest : List (Call Id)} {call : Call Id}
  {task' : Task Id}

/-- Where a call leaves its task's list of calls. -/
theorem Moves.pushed (h : Moves n fresh wait rest call task') :
    task'.todo = [] ∨
      (∃ conn s info now, wait = .pairing conn s ∧ s.remoteInfo = some info ∧
        task' = pairingCompleted conn info now n.homeRelayUrl) ∨
      ∃ pushed, task'.todo = pushed ++ rest ∧ ∀ c ∈ pushed, Pushes n fresh call c := by
  cases h with
  | onward => exact Or.inr (Or.inr ⟨[], rfl, by simp⟩)
  | stopped => exact Or.inl rfl
  | gateRead conn => exact Or.inr (Or.inr ⟨[_], rfl, by simpa using .gate conn⟩)
  | gatePaired conn isOpen => exact Or.inr (Or.inr ⟨_, rfl, .registered conn isOpen⟩)
  | gatePassed => exact Or.inr (Or.inr ⟨[], rfl, by simp⟩)
  | completed conn s info now hWait hInfo =>
      exact Or.inr (Or.inl ⟨conn, s, info, now, hWait, hInfo, rfl⟩)
  | invited conn other s invite _ hAllowed =>
      exact Or.inr (Or.inr ⟨[_, _], rfl, by
        simpa using ⟨.invited conn invite hAllowed, .checked conn invite⟩⟩)
  | storeRead op cont => exact Or.inr (Or.inr ⟨[_], rfl, by simpa using .write op cont⟩)
  | storeKept op cont reply =>
      rcases cont.resume_eq rest wait reply with ⟨_, hNext⟩ | ⟨pushed, hNext, hAll⟩
      · exact Or.inl (by rw [hNext]; rfl)
      · exact Or.inr (Or.inr ⟨pushed, by rw [hNext], fun c hc =>
          .unpairedKept op cont c (List.all_eq_true.mp hAll c hc)⟩)
  | storeWritten op base cont reply =>
      rcases cont.resume_eq rest wait reply with ⟨_, hNext⟩ | ⟨pushed, hNext, hAll⟩
      · exact Or.inl (by rw [hNext]; rfl)
      · exact Or.inr (Or.inr ⟨pushed, by rw [hNext], fun c hc =>
          .unpaired op base cont c (List.all_eq_true.mp hAll c hc)⟩)
  | touching endpointId now =>
      exact Or.inr (Or.inr ⟨[_], rfl, by simpa using .touch endpointId now⟩)
  | remembering info relayUrl now =>
      exact Or.inr (Or.inr ⟨[_], rfl, by simpa using .remember info relayUrl now⟩)
  | closing hTimed => exact Or.inr (Or.inr ⟨[_], rfl, by simpa using .close hTimed⟩)
  | expiring => exact Or.inr (Or.inr ⟨[_], rfl, by simpa using .expiry⟩)
  | sessionRemoved key => exact Or.inr (Or.inr ⟨[_], rfl, by simpa using .presence key⟩)
  | refreshing => exact Or.inr (Or.inr ⟨[_], rfl, by simpa using .tasks⟩)
  | connecting => exact Or.inr (Or.inr ⟨[], rfl, by simp⟩)

/-- Where a call leaves its task's next wait. -/
theorem Moves.nextWait (h : Moves n fresh wait rest call task') :
    task'.wait = wait ∨ (∃ ok, task' = Task.returned ok) ∨
      (∃ conn isOpen, call = .readAllowed conn isOpen ∧ conn.remote ∈ n.access.allowed ∧
        task'.wait = .pairedExport conn) ∨
      (∃ conn, call = .readAllowed conn true ∧ conn.remote ∉ n.access.allowed ∧
        task'.wait = .acceptBi conn) ∨
      (∃ conn s, wait = .pairing conn s ∧
        (task'.wait = .holding conn ∨ ∃ s', task'.wait = .pairing conn s')) ∨
      (∃ endpointId relayUrl, call = .deviceStillActive endpointId relayUrl ∧
        task'.wait = .connecting endpointId relayUrl) := by
  cases h with
  | stopped _ ok => exact Or.inr (Or.inl ⟨ok, rfl⟩)
  | gatePaired conn isOpen hAllowed =>
      exact Or.inr (Or.inr (Or.inl ⟨conn, isOpen, rfl, hAllowed, rfl⟩))
  | gatePassed conn hUnknown => exact Or.inr (Or.inr (Or.inr (Or.inl ⟨conn, rfl, hUnknown, rfl⟩)))
  | completed conn s _ _ hWait =>
      exact Or.inr (Or.inr (Or.inr (Or.inr (Or.inl ⟨conn, s, hWait, Or.inl rfl⟩))))
  | invited _ other s _ hWait =>
      exact Or.inr (Or.inr (Or.inr (Or.inr (Or.inl ⟨other, s, hWait, Or.inr ⟨_, rfl⟩⟩))))
  | storeKept _ cont reply | storeWritten _ _ cont reply =>
      rcases cont.resume_eq rest wait reply with ⟨_, hNext⟩ | ⟨pushed, hNext, _⟩
      · exact Or.inr (Or.inl ⟨false, hNext⟩)
      · exact Or.inl (by rw [hNext])
  | connecting endpointId relayUrl =>
      exact Or.inr (Or.inr (Or.inr (Or.inr (Or.inr ⟨endpointId, relayUrl, rfl, rfl⟩))))
  | _ => exact Or.inl rfl

end

variable [DecidableEq Id]

/-- How a call can leave the shared state. -/
inductive Changes (n : Node Id) (fresh : Nat) : Call Id → Node Id → Prop where
  | kept (call : Call Id) : Changes n fresh call n
  | emitted (event : NodeEvent) : Changes n fresh (.emit event) (n.emit event)
  | answered (remote : Id) (response : InviteResponse) (displayName : Option String) :
      Changes n fresh (.emitInviteResponse remote response)
        (n.emit (.pairedInviteResponse (toStr remote) displayName response))
  | fileWritten (op : StoreOp) (base : List PairedDevice) (cont : StoreCont Id) :
      Changes n fresh (.storeWrite op base cont) { n with file := op.apply String.toLowercase base }
  | allowed (remote : Id) : Changes n fresh (.allowPeer remote) (n.allowPeer remote)
  | disallowed (remote : Id) : Changes n fresh (.disallow remote) (n.disallow remote)
  | accessOpen (isOpen : Bool) : Changes n fresh (.setAccessOpen isOpen) (n.setAccessOpen isOpen)
  | hostOpen (isOpen : Bool) :
      Changes n fresh (.setPairingHostOpen isOpen) { n with pairingHostOpen := isOpen }
  | hostPersistent (persistent : Bool) : Changes n fresh (.setPairingHostPersistent persistent)
      { n with pairingHostPersistent := persistent }
  | expireTaken : Changes n fresh .takeExpireTask { n with
      pairingExpireTask := none
      aborted := n.aborted ++ n.pairingExpireTask.toList }
  | expirePut (handle : Nat) :
      Changes n fresh (.putExpireTask handle) { n with pairingExpireTask := some handle }
  | presence (endpointId : String) (writer : PresenceWriter) :
      Changes n fresh (.setPresence endpointId writer) (n.setPresence endpointId writer.online)
  | sessionInserted (key : String) (conn : Connection Id) :
      Changes n fresh (.insertSession key conn)
        { n with sessions := Function.update n.sessions key (some conn) }
  | sessionRemoved (key : String) : Changes n fresh (.removeSession key)
      { n with sessions := Function.update n.sessions key none }
  | connectTaskRemoved (key : String) : Changes n fresh (.removeConnectTask key) { n with
      connectTasks := n.connectTasks.filter (·.1 != key)
      aborted := n.aborted ++ (n.connectTask key).toList }
  | refreshed (active : List PairedDevice) :
      Changes n fresh (.refreshTasks active) (n.refreshTasks fresh active).1
  | relayModeSet (relayMode : String) :
      Changes n fresh (.setRelayMode relayMode) { n with relayMode := relayMode }
  | homeRelaySet (url : String) :
      Changes n fresh (.setHomeRelayUrl url) { n with homeRelayUrl := some url }
  | managerStopped : Changes n fresh .managerShutdown { n with
      shutdown := true
      connectTasks := []
      aborted := n.aborted ++ n.connectTasks.map (·.2) }
  | sessionsCleared : Changes n fresh .clearSessions { n with sessions := fun _ => none }

/-- What a call spawns: the expiry of a timed window, and connect loops. -/
def spawns (n : Node Id) (fresh : Nat) : Call Id → List (Task Id)
  | .spawnExpireTask => [⟨[], .sleeping⟩]
  | .refreshTasks active => (n.refreshTasks fresh active).2.map fun d =>
      ⟨[.deviceStillActive d.endpointId d.relayUrl], .returned true⟩
  | _ => []

section
variable {n n' : Node Id} {fresh : Nat} {wait : Wait Id} {rest : List (Call Id)}
  {call : Call Id} {input : Input} {task' : Task Id} {spawned : List (Task Id)}

/-- Every way a call can move its task is one of the named ones. -/
theorem exec_moves (h : call.exec n fresh wait rest input = some (n', task', spawned)) :
    Moves n fresh wait rest call task' := by
  unfold exec at h
  split at h
  case h_3 conn isOpen _ =>
    split at h
    · next hAllowed =>
        obtain ⟨rfl, rfl, rfl⟩ := by simpa using h
        exact .gatePaired conn isOpen hAllowed
    · next hUnknown =>
        cases isOpen with
        | false =>
            obtain ⟨rfl, rfl, rfl⟩ := by simpa using h
            exact .stopped _ _ rfl
        | true =>
            obtain ⟨rfl, rfl, rfl⟩ := by simpa using h
            exact .gatePassed conn hUnknown
  case h_7 now =>
    split at h
    · next conn s =>
        split at h
        · next info hInfo =>
            split at h
            · next hVote =>
                obtain ⟨rfl, rfl, rfl⟩ := by simpa using h
                exact .completed conn s info now rfl hInfo hVote
            · obtain ⟨rfl, rfl, rfl⟩ := by simpa using h
              exact .onward _ (by nofun)
        · obtain ⟨rfl, rfl, rfl⟩ := by simpa using h
          exact .onward _ (by nofun)
    · cases h
  case h_8 conn invite _ =>
    split at h
    · next session s =>
        split at h
        · next hAllowed =>
            obtain ⟨rfl, rfl, rfl⟩ := by simpa using h
            exact .invited conn session s invite rfl hAllowed
        · obtain ⟨rfl, rfl, rfl⟩ := by simpa using h
          exact .onward _ (by nofun)
    · cases h
  case h_25 =>
    split at h
    · next hPersistent =>
        obtain ⟨rfl, rfl, rfl⟩ := by simpa using h
        exact .onward _ fun _ => hPersistent
    · next hTimed =>
        obtain ⟨rfl, rfl, rfl⟩ := by simpa using h
        exact .closing (by simpa using hTimed)
  case h_32 key _ =>
    cases hRemoved : (n.sessions key).isSome with
    | true =>
        obtain ⟨rfl, rfl, rfl⟩ := by simpa [hRemoved] using h
        exact .sessionRemoved key
    | false =>
        obtain ⟨rfl, rfl, rfl⟩ := by simpa [hRemoved] using h
        exact .onward _ (by nofun)
  case h_37 endpointId relayUrl _ =>
    dsimp only at h
    split at h
    · obtain ⟨rfl, rfl, rfl⟩ := by simpa using h
      exact .connecting endpointId relayUrl
    · obtain ⟨rfl, rfl, rfl⟩ := by simpa using h
      exact .stopped _ _ rfl
  case h_6 message must =>
    cases must with
    | true =>
        obtain ⟨rfl, rfl, rfl⟩ := by simpa using h
        exact .stopped _ _ rfl
    | false =>
        obtain ⟨rfl, rfl, rfl⟩ := by simpa using h
        exact .onward _ (by nofun)
  all_goals try split at h
  all_goals
    simp only [Option.some.injEq, Prod.mk.injEq, reduceCtorEq] at h
    try obtain ⟨rfl, rfl, rfl⟩ := h
  all_goals first
    | exact .onward _ (by nofun)
    | exact .stopped _ _ rfl
    | exact .gateRead _
    | exact .storeRead _ _
    | exact .storeKept _ _ _
    | exact .storeWritten _ _ _ _
    | exact .touching _ _
    | exact .remembering _ _ _
    | exact .refreshing
    | exact .expiring

/-- Every way a call can change the node is one of the named ones. -/
theorem exec_changes (h : call.exec n fresh wait rest input = some (n', task', spawned)) :
    Changes n fresh call n' := by
  unfold exec at h
  split at h
  all_goals try dsimp only at h
  all_goals try split at h
  all_goals try split at h
  all_goals try split at h
  all_goals
    simp only [Option.some.injEq, Prod.mk.injEq, reduceCtorEq] at h
    try obtain ⟨rfl, rfl, rfl⟩ := h
  all_goals first
    | exact .kept _
    | constructor

/-- A call spawns what its kind says, whatever the node holds. -/
theorem exec_spawns (h : call.exec n fresh wait rest input = some (n', task', spawned)) :
    spawned = call.spawns n fresh := by
  unfold exec at h
  split at h
  all_goals try dsimp only at h
  all_goals try split at h
  all_goals try split at h
  all_goals try split at h
  all_goals
    simp only [Option.some.injEq, Prod.mk.injEq, reduceCtorEq] at h
    try obtain ⟨rfl, rfl, rfl⟩ := h
  all_goals rfl

end

/-- Only three calls write the access state. -/
theorem Changes.access {n n' : Node Id} {fresh : Nat} {call : Call Id}
    (h : call.Changes n fresh n') :
    n'.access = n.access ∨
      (∃ remote, call = .allowPeer remote ∧ n' = n.allowPeer remote) ∨
      (∃ remote, call = .disallow remote ∧ n' = n.disallow remote) ∨
      (∃ isOpen, call = .setAccessOpen isOpen ∧ n' = n.setAccessOpen isOpen) := by
  cases h with
  | allowed remote => exact Or.inr (Or.inl ⟨remote, rfl, rfl⟩)
  | disallowed remote => exact Or.inr (Or.inr (Or.inl ⟨remote, rfl, rfl⟩))
  | accessOpen isOpen => exact Or.inr (Or.inr (Or.inr ⟨isOpen, rfl, rfl⟩))
  | presence endpointId writer =>
      exact Or.inl (n.setPresence_access endpointId writer.online)
  | _ => exact Or.inl rfl

/-- The access state stays open or closed but for the one call that sets it. -/
theorem Changes.pairingHostOpen {n n' : Node Id} {fresh : Nat} {call : Call Id}
    (h : call.Changes n fresh n') :
    n'.access.pairingHostOpen = n.access.pairingHostOpen ∨
      ∃ isOpen, call = .setAccessOpen isOpen ∧ n'.access.pairingHostOpen = isOpen := by
  rcases h.access with hSame | ⟨_, _, rfl⟩ | ⟨_, _, rfl⟩ | ⟨isOpen, rfl, rfl⟩
  · exact Or.inl (by rw [hSame])
  · exact Or.inl rfl
  · exact Or.inl rfl
  · exact Or.inr ⟨isOpen, rfl, rfl⟩

end Call

variable [DecidableEq Id]

/-- A turn is an abort taking effect, an answer from outside, or a call. -/
theorem Task.turn_eq_some {n n' : Node Id} {self fresh : Nat} {task task' : Task Id}
    {input : Input} {spawned : List (Task Id)}
    (h : task.turn n self fresh input = some (n', task', spawned)) :
    (input = .cancelled ∧ n.aborted.contains self ∧ n' = n ∧ task' = Task.returned false ∧
        spawned = []) ∨
      (task.todo = [] ∧ n' = n ∧ spawned = [] ∧ task.wait.resume n input = some task') ∨
      (∃ call rest, task.todo = call :: rest ∧
        call.exec n fresh task.wait rest input = some (n', task', spawned)) := by
  unfold Task.turn at h
  split at h
  · next hInput =>
      split at h
      · next hAborted =>
          simp only [Option.some.injEq, Prod.mk.injEq] at h
          obtain ⟨rfl, rfl, rfl⟩ := h
          rw [Bool.and_eq_true] at hAborted
          exact Or.inl ⟨hInput, hAborted.1, rfl, rfl, rfl⟩
      · cases h
  · cases hTodo : task.todo with
    | nil =>
        simp only [hTodo, Option.map_eq_some_iff, Prod.mk.injEq] at h
        obtain ⟨next, hNext, rfl, rfl, rfl⟩ := h
        exact Or.inr (Or.inl ⟨rfl, rfl, rfl, hNext⟩)
    | cons call rest =>
        simp only [hTodo] at h
        exact Or.inr (Or.inr ⟨call, rest, rfl, h⟩)

/-- An abort that takes effect ends its task, and nothing else. -/
theorem Task.turn_cancelled {n n' : Node Id} {self fresh : Nat} {task task' : Task Id}
    {spawned : List (Task Id)}
    (h : task.turn n self fresh .cancelled = some (n', task', spawned)) :
    self ∈ n.aborted ∧ n' = n ∧ task' = Task.returned false ∧ spawned = [] := by
  rw [Task.turn, if_pos rfl] at h
  split at h
  · next hAborted =>
      simp only [Option.some.injEq, Prod.mk.injEq] at h
      obtain ⟨rfl, rfl, rfl⟩ := h
      rw [Bool.and_eq_true, List.contains_iff_mem] at hAborted
      exact ⟨hAborted.1, rfl, rfl, rfl⟩
  · cases h

omit [EndpointKeys Id] [DecidableEq Id] in
theorem nextCall_eq_some {c : NodeConfig Id} {t : Nat} {call : Call Id} :
    nextCall c t = some call ↔ ∃ task rest, c.tasks[t]? = some task ∧ task.todo = call :: rest := by
  simp only [nextCall, Option.bind_eq_some_iff, List.head?_eq_some_iff]
  constructor
  · rintro ⟨task, hTask, rest, hTodo⟩
    exact ⟨task, rest, hTask, hTodo⟩
  · rintro ⟨task, rest, hTask, hTodo⟩
    exact ⟨task, hTask, rest, hTodo⟩

/-- A turn changes the shared state only by performing a call. -/
theorem Task.turn_changes {n n' : Node Id} {self fresh : Nat} {task task' : Task Id}
    {input : Input} {spawned : List (Task Id)}
    (h : task.turn n self fresh input = some (n', task', spawned)) :
    n' = n ∨ ∃ call rest, task.todo = call :: rest ∧ call.Changes n fresh n' ∧
      call.Moves n fresh task.wait rest task' := by
  rcases Task.turn_eq_some h with ⟨_, _, rfl, _⟩ | ⟨_, rfl, _⟩ | ⟨call, rest, hTodo, hExec⟩
  · exact Or.inl rfl
  · exact Or.inl rfl
  · exact Or.inr ⟨call, rest, hTodo, Call.exec_changes hExec, Call.exec_moves hExec⟩

/-- The tasks that exist before their first turn. -/
inductive NewTask : Task Id → Prop where
  | command (command : Command Id) : NewTask command.start
  | expiry : NewTask ⟨[], .sleeping⟩
  | connectLoop (endpointId : String) (relayUrl : Option String) :
      NewTask ⟨[.deviceStillActive endpointId relayUrl], .returned true⟩
  | supervisor : NewTask ⟨[.refresh], .supervising⟩

/-- Calls a command can begin with. -/
def Call.isFirst : Call Id → Bool
  | .afterHandshake _ | .readPairingHostOpen _ | .requireAllowed _ | .getDevice _ | .disallow _
  | .store (.forget _) .propagate | .store (.rename _ _) .propagate | .removeConnectTask _
  | .removeSession _ | .setPresence _ _ | .takeExpireTask | .setPairingHostPersistent _
  | .setPairingHostOpen _ | .setAccessOpen _ | .spawnExpireTask | .checkRelayMode _
  | .setHomeRelayUrl _ | .managerShutdown | .clearSessions | .deviceStillActive _ _
  | .refresh => true
  | .emit event => event.inviteFrom.isNone
  | _ => false

def Wait.isFirst : Wait Id → Bool
  | .returned _ | .joinConnect _ _ | .notifyWait _ _ _ _ | .rebuilding _ | .sleeping
  | .supervising => true
  | _ => false

/-- What a command can start: nothing, where an id or a ticket does not parse,
or the calls of its function. -/
inductive Command.Starts : Command Id → Task Id → Prop where
  | refused (command : Command Id) : Starts command (Task.returned false)
  | inbound (conn : Connection Id) :
      Starts (.inbound conn) ⟨[.afterHandshake conn, .readPairingHostOpen conn], .returned true⟩
  | joinPairing (ticket : Option PairingTicket) (remote : Id) (relayUrl : Option String) :
      Starts (.joinPairing ticket) ⟨[], .joinConnect remote relayUrl⟩
  | forgetPaired (endpointId : String) : Starts (.forgetPaired endpointId)
      ⟨.getDevice endpointId :: .store (.forget endpointId) .propagate ::
        (managerForget endpointId ++
          [.setPresence endpointId .forgotten, .emit (.deviceUnpaired endpointId none "local")]),
        .returned true⟩
  | forgetAllowed (endpointId : String) (remote : Id) : Starts (.forgetPaired endpointId)
      ⟨.getDevice endpointId :: .disallow remote :: .store (.forget endpointId) .propagate ::
        (managerForget endpointId ++
          [.setPresence endpointId .forgotten, .emit (.deviceUnpaired endpointId none "local")]),
        .returned true⟩
  | renamePaired (endpointId displayName : String) : Starts (.renamePaired endpointId displayName)
      ⟨[.store (.rename endpointId displayName) .propagate], .returned true⟩
  | persistentHost :
      Starts (.startPairingHost none) ⟨AltSendme.startPairingHost none, .returned true⟩
  | timedHost (ttlSecs : UInt64) : Starts (.startPairingHost (some ttlSecs))
      ⟨AltSendme.startPairingHost (some ttlSecs), .returned true⟩
  | stopPairingHost : Starts .stopPairingHost ⟨AltSendme.stopPairingHost, .returned true⟩
  | reconfigureRelay (relayMode : String) : Starts (.reconfigureRelay relayMode)
      ⟨.checkRelayMode relayMode :: AltSendme.stopPairingHost ++ [.emit .deviceNodeNetworkWarming],
        .rebuilding relayMode⟩
  | notify (command : Command Id) (remote : Id) (endpointId : String) (message : ControlMessage)
      (fallbackPresence : Bool) : Starts command
      ⟨[.requireAllowed remote, .getDevice endpointId],
        .notifyWait remote endpointId message fallbackPresence⟩
  | networkReady (url : Option String) :
      Starts (.networkReady url) ⟨[.emit .deviceNodeNetworkReady], .returned true⟩
  | homeRelay (url : String) : Starts (.networkReady (some url))
      ⟨[.setHomeRelayUrl url, .emit .deviceNodeNetworkReady], .returned true⟩
  | shutdown : Starts .shutdown
      ⟨AltSendme.stopPairingHost ++ [.managerShutdown, .clearSessions], .returned true⟩

omit [DecidableEq Id] in
/-- Every command starts in one of the named ways. -/
theorem Command.starts (command : Command Id) : command.Starts command.start := by
  have hNotify (command : Command Id) (endpointId : String) (message : ControlMessage)
      (fallbackPresence : Bool) : command.Starts (notify endpointId message fallbackPresence) := by
    unfold notify
    split
    · exact .refused command
    · next remote _ => exact .notify command remote endpointId message fallbackPresence
  cases command with
  | inbound conn => exact .inbound conn
  | joinPairing ticket =>
      simp only [start]
      split
      · exact .refused _
      · split
        · exact .refused _
        · next ticket _ remote _ => exact .joinPairing (some ticket) remote ticket.relayUrl
  | forgetPaired endpointId =>
      simp only [start, AltSendme.forgetPaired]
      split
      · next remote _ => exact .forgetAllowed endpointId remote
      · exact .forgetPaired endpointId
  | renamePaired endpointId displayName => exact .renamePaired endpointId displayName
  | startPairingHost ttlSecs =>
      cases ttlSecs with
      | none => exact .persistentHost
      | some ttlSecs => exact .timedHost ttlSecs
  | stopPairingHost => exact .stopPairingHost
  | reconfigureRelay relayMode => exact .reconfigureRelay relayMode
  | invitePairedDevice endpointId invite => exact hNotify _ endpointId (.invite invite) true
  | respondPairedInvite endpointId response =>
      exact hNotify _ endpointId (.inviteResponse "" response) false
  | networkReady url =>
      cases url with
      | none => exact .networkReady none
      | some url => exact .homeRelay url
  | shutdown => exact .shutdown

omit [EndpointKeys Id] [DecidableEq Id] in
theorem Command.Starts.isFirst {command : Command Id} {task : Task Id}
    (h : command.Starts task) : task.todo.all Call.isFirst ∧ task.wait.isFirst := by
  cases h <;> exact ⟨rfl, rfl⟩

omit [DecidableEq Id] in
theorem NewTask.isFirst {task : Task Id} (h : NewTask task) :
    task.todo.all Call.isFirst ∧ task.wait.isFirst := by
  cases h with
  | command command => exact command.starts.isFirst
  | _ => exact ⟨rfl, rfl⟩

/-- A turn spawns the expiry of a window, or connect loops. -/
theorem Task.spawned_cases {n n' : Node Id} {self fresh : Nat} {task task' new : Task Id}
    {input : Input} {spawned : List (Task Id)}
    (h : task.turn n self fresh input = some (n', task', spawned)) (hNew : new ∈ spawned) :
    (new = ⟨[], .sleeping⟩ ∧ ∃ rest, task.todo = .spawnExpireTask :: rest) ∨
      ∃ endpointId relayUrl,
        new = ⟨[.deviceStillActive endpointId relayUrl], .returned true⟩ := by
  rcases Task.turn_eq_some h with ⟨_, _, _, _, rfl⟩ | ⟨_, _, rfl, _⟩ | ⟨call, rest, hTodo, hExec⟩
  · cases hNew
  · cases hNew
  · rw [Call.exec_spawns hExec] at hNew
    cases call with
    | spawnExpireTask => exact Or.inl ⟨List.mem_singleton.mp hNew, rest, hTodo⟩
    | refreshTasks active =>
        obtain ⟨d, _, rfl⟩ := List.mem_map.mp hNew
        exact Or.inr ⟨d.endpointId, d.relayUrl, rfl⟩
    | _ => cases hNew

/-- What a turn spawns are new tasks. -/
theorem Task.spawned_new {n n' : Node Id} {self fresh : Nat} {task task' new : Task Id}
    {input : Input} {spawned : List (Task Id)}
    (h : task.turn n self fresh input = some (n', task', spawned)) (hNew : new ∈ spawned) :
    NewTask new := by
  rcases Task.spawned_cases h hNew with ⟨rfl, _⟩ | ⟨endpointId, relayUrl, rfl⟩
  · exact .expiry
  · exact .connectLoop endpointId relayUrl

/-- After a start all tasks are new. -/
theorem started_new {restart : Restart Id} {file : List PairedDevice} {t : Nat} {task : Task Id}
    (h : (started restart file).tasks[t]? = some task) : NewTask task := by
  obtain rfl := List.mem_singleton.mp (List.mem_of_getElem? h)
  exact .supervisor

/-- After a restart all tasks are new. -/
theorem restarted_new (restart : Restart Id) (n : Node Id) {t : Nat} {task : Task Id}
    (h : (nodePool.restart restart n).2[t]? = some task) : NewTask task := by
  obtain rfl := List.mem_singleton.mp (List.mem_of_getElem? h)
  exact .supervisor

/-- The proof rule for invariants of single tasks against the shared state:
new tasks have it, a task's own turn keeps it, and so does any other's. -/
theorem step_all {I : Node Id → Task Id → Prop} {c d : NodeConfig Id} {l : NodeLabel Id}
    (hAll : c.All I) (hStep : step c l = some d) (hNew : ∀ n task, NewTask task → I n task)
    (hOwn : ∀ t input task n' task' spawned, l = .turn t input → c.tasks[t]? = some task →
      I c.shared task → task.turn c.shared t c.tasks.length input = some (n', task', spawned) →
      I n' task')
    (hOther : ∀ t input task n' task' spawned u other, l = .turn t input →
      c.tasks[t]? = some task →
      task.turn c.shared t c.tasks.length input = some (n', task', spawned) → u ≠ t →
      c.tasks[u]? = some other → I c.shared other → I n' other) : d.All I := by
  cases l with
  | call command =>
      exact Execution.Pool.all_of_call nodePool hAll hStep (hNew _ _ (.command command))
  | restart restart =>
      obtain rfl := Option.some.inj hStep
      intro t task hTask
      exact hNew _ _ (restarted_new restart c.shared hTask)
  | turn t input =>
      refine Execution.Pool.all_of_turn nodePool hAll hStep ?_ ?_
      · intro task n' task' spawned hTask hInv hTurn
        exact ⟨hOwn t input task n' task' spawned rfl hTask hInv hTurn,
          fun new hMem => hNew _ _ (Task.spawned_new hTurn hMem)⟩
      · intro task n' task' spawned u other hTask hTurn hne hOther' hInv
        exact hOther t input task n' task' spawned u other rfl hTask hTurn hne hOther' hInv

end AltSendme
