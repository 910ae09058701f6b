import AltSendme.Native.Link

/-! How far the two sides of a pairing have come. A side moves from one stage
to the next, or it leaves the pairing; the stages of both and the stream
between them are everything a pairing is at any moment. -/
namespace AltSendme

variable {Id : Type} [DecidableEq Id] [EndpointKeys Id]
open EndpointKeys (toStr fromStr)

/-- The store holds the device as active. -/
def Node.StoresActive (n : Node Id) (id : Id) : Prop :=
  (PairedDeviceStore.get String.toLowercase n.file (toStr id)).map (·.pairingStatus) = some .active

instance (n : Node Id) (id : Id) : Decidable (n.StoresActive id) :=
  inferInstanceAs (Decidable (_ = _))

namespace Handshake
variable (s : Handshake Id)

/-- The session from its first check to the end of its loop, and from there
through the record, the allowlist entry and the hold. -/
inductive HostAt : Nat → Node Id → Task Id → Prop where
  | arrived : HostAt 0 s.host
      ⟨[.afterHandshake s.hostConn, .readPairingHostOpen s.hostConn], .returned true⟩
  | shaken : HostAt 1 s.host ⟨[.readPairingHostOpen s.hostConn], .returned true⟩
  | gated : HostAt 2 s.host
      ⟨[.readAllowed s.hostConn s.host.access.pairingHostOpen], .returned true⟩
  | accepting : HostAt 3 s.host ⟨[], .acceptBi s.hostConn⟩
  | greeting : HostAt 4 s.host
      ⟨[.send (.pairingInfo s.hostInfo) true], .pairing s.hostConn PairingSession.fresh⟩
  | listening : HostAt 5 s.host ⟨[], .pairing s.hostConn PairingSession.fresh⟩
  | informed : HostAt 6 s.host
      ⟨[.afterMessage], .pairing s.hostConn ⟨some s.joinerInfo, none, false⟩⟩
  | undecided : HostAt 7 s.host ⟨[], .pairing s.hostConn ⟨some s.joinerInfo, none, false⟩⟩
  | decided : HostAt 8 s.host
      ⟨[.afterMessage], .pairing s.hostConn ⟨some s.joinerInfo, some .remember, false⟩⟩
  | completed (now : UInt64) (relayUrl : Option String) :
      HostAt 9 s.host (pairingCompleted s.hostConn s.joinerInfo now relayUrl)
  | writing (now : UInt64) (relayUrl : Option String) : HostAt 10 s.host
      ⟨[.storeWrite (.remember (deviceOfInfo s.joinerInfo now relayUrl)) s.host.file .ignore,
        .allowPeer s.joiner.identity.id, .refresh, .emit .devicePaired,
        .send (rememberVote s.hostConn) false, .closeUnlessPersistent], .holding s.hostConn⟩
  | remembered (n : Node Id) (hActive : n.StoresActive s.joiner.identity.id) : HostAt 11 n
      ⟨[.allowPeer s.joiner.identity.id, .refresh, .emit .devicePaired,
        .send (rememberVote s.hostConn) false, .closeUnlessPersistent], .holding s.hostConn⟩
  | allowed (n : Node Id) (hActive : n.StoresActive s.joiner.identity.id)
      (hAllowed : s.joiner.identity.id ∈ n.access.allowed) : HostAt 12 n
      ⟨[.refresh, .emit .devicePaired, .send (rememberVote s.hostConn) false,
        .closeUnlessPersistent], .holding s.hostConn⟩
  | refreshing (n : Node Id) (active : List PairedDevice)
      (hActive : n.StoresActive s.joiner.identity.id)
      (hAllowed : s.joiner.identity.id ∈ n.access.allowed) : HostAt 13 n
      ⟨[.refreshTasks active, .emit .devicePaired, .send (rememberVote s.hostConn) false,
        .closeUnlessPersistent], .holding s.hostConn⟩
  | refreshed (n : Node Id) (hActive : n.StoresActive s.joiner.identity.id)
      (hAllowed : s.joiner.identity.id ∈ n.access.allowed) : HostAt 14 n
      ⟨[.emit .devicePaired, .send (rememberVote s.hostConn) false, .closeUnlessPersistent],
        .holding s.hostConn⟩
  | reported (n : Node Id) (hActive : n.StoresActive s.joiner.identity.id)
      (hAllowed : s.joiner.identity.id ∈ n.access.allowed) : HostAt 15 n
      ⟨[.send (rememberVote s.hostConn) false, .closeUnlessPersistent], .holding s.hostConn⟩
  | voted (n : Node Id) (hActive : n.StoresActive s.joiner.identity.id)
      (hAllowed : s.joiner.identity.id ∈ n.access.allowed) :
      HostAt 16 n ⟨[.closeUnlessPersistent], .holding s.hostConn⟩
  | closing (n : Node Id) (hActive : n.StoresActive s.joiner.identity.id)
      (hAllowed : s.joiner.identity.id ∈ n.access.allowed) :
      HostAt 17 n ⟨[.setAccessOpen false], .holding s.hostConn⟩
  | holding (n : Node Id) (hActive : n.StoresActive s.joiner.identity.id)
      (hAllowed : s.joiner.identity.id ∈ n.access.allowed) :
      HostAt 18 n ⟨[], .holding s.hostConn⟩
  | finished (n : Node Id) (hActive : n.StoresActive s.joiner.identity.id)
      (hAllowed : s.joiner.identity.id ∈ n.access.allowed) : HostAt 19 n (Task.returned true)

/-- How many of the joiner's messages the session has read. -/
def hostRead (i : Nat) : Nat := if i ≤ 5 then 0 else if i ≤ 7 then 1 else 2

/-- `join_pairing` on a connection of its own session id. -/
inductive JoinAt (conn : Connection Id) : Nat → Node Id → Task Id → Prop where
  | connecting : JoinAt conn 0 s.joiner ⟨[], .joinConnect s.host.identity.id s.relayUrl⟩
  | connected : JoinAt conn 1 s.joiner ⟨[], .joinOpen conn s.relayUrl⟩
  | opened : JoinAt conn 2 s.joiner
      ⟨[.send (.pairingInfo s.joinerInfo) true, .send (rememberVote conn) true],
        .joinRead conn s.relayUrl⟩
  | introduced : JoinAt conn 3 s.joiner
      ⟨[.send (rememberVote conn) true], .joinRead conn s.relayUrl⟩
  | listening : JoinAt conn 4 s.joiner ⟨[], .joinRead conn s.relayUrl⟩
  | informed : JoinAt conn 5 s.joiner
      ⟨[.rememberHost s.hostInfo s.relayUrl, .allowPeer s.host.identity.id, .refresh,
        .emit .devicePaired], .joined conn⟩
  | remembering (now : UInt64) : JoinAt conn 6 s.joiner
      ⟨[.store (.remember (deviceOfInfo s.hostInfo now s.relayUrl)) .propagate,
        .allowPeer s.host.identity.id, .refresh, .emit .devicePaired], .joined conn⟩
  | writing (now : UInt64) : JoinAt conn 7 s.joiner
      ⟨[.storeWrite (.remember (deviceOfInfo s.hostInfo now s.relayUrl)) s.joiner.file .propagate,
        .allowPeer s.host.identity.id, .refresh, .emit .devicePaired], .joined conn⟩
  | remembered (n : Node Id) (hActive : n.StoresActive s.host.identity.id) : JoinAt conn 8 n
      ⟨[.allowPeer s.host.identity.id, .refresh, .emit .devicePaired], .joined conn⟩
  | allowed (n : Node Id) (hActive : n.StoresActive s.host.identity.id)
      (hAllowed : s.host.identity.id ∈ n.access.allowed) : JoinAt conn 9 n
      ⟨[.refresh, .emit .devicePaired], .joined conn⟩
  | refreshing (n : Node Id) (active : List PairedDevice)
      (hActive : n.StoresActive s.host.identity.id)
      (hAllowed : s.host.identity.id ∈ n.access.allowed) : JoinAt conn 10 n
      ⟨[.refreshTasks active, .emit .devicePaired], .joined conn⟩
  | refreshed (n : Node Id) (hActive : n.StoresActive s.host.identity.id)
      (hAllowed : s.host.identity.id ∈ n.access.allowed) : JoinAt conn 11 n
      ⟨[.emit .devicePaired], .joined conn⟩
  | leaving (n : Node Id) (hActive : n.StoresActive s.host.identity.id)
      (hAllowed : s.host.identity.id ∈ n.access.allowed) : JoinAt conn 12 n ⟨[], .joined conn⟩
  | finished (n : Node Id) (hActive : n.StoresActive s.host.identity.id)
      (hAllowed : s.host.identity.id ∈ n.access.allowed) : JoinAt conn 13 n (Task.returned true)

/-- How many messages the joiner has written. -/
def joinerSent (j : Nat) : Nat := if j ≤ 2 then 0 else if j ≤ 3 then 1 else 2

/-- What the joiner writes. -/
def joinerScript (conn : Connection Id) : List ControlMessage :=
  [.pairingInfo s.joinerInfo, rememberVote conn]

end Handshake

/-- Calls of a paired session. None of them writes, and none leads back to a gate
or to the pairing loop. -/
def Call.isQuiet : Call Id → Bool
  | .send _ _ | .readPairingHostOpen _ | .readAllowed _ _ | .afterMessage | .checkInvite _ _
  | .deviceStillActive _ _ => false
  | _ => true

/-- A session that writes nothing any more: it serves a paired device, or it
has ended. -/
def Task.isQuiet (task : Task Id) : Bool :=
  task.todo.all Call.isQuiet && (task.wait.kind = .pairedSession || task.wait.kind = .over)

section Quiet
variable {n n' : Node Id} {fresh self : Nat} {task task' : Task Id} {input : Input}
  {spawned : List (Task Id)}

omit [DecidableEq Id] in
/-- A quiet call pushes quiet ones only. -/
theorem Call.Pushes.isQuiet {call pushed : Call Id} (h : Call.Pushes n fresh call pushed)
    (hCall : call.isQuiet) : pushed.isQuiet := by
  cases h with
  | unpairedKept _ _ _ hUnpairing | unpaired _ _ _ _ hUnpairing =>
      cases pushed <;> first | rfl | cases hUnpairing
  | gate | registered | invited | checked => cases hCall
  | _ => rfl

omit [DecidableEq Id] in
/-- Working off a quiet call leaves a quiet task. -/
theorem Call.Moves.isQuiet {wait : Wait Id} {rest : List (Call Id)} {call : Call Id}
    (h : call.Moves n fresh wait rest task') (hQuiet : Task.isQuiet ⟨call :: rest, wait⟩) :
    task'.isQuiet := by
  simp only [Task.isQuiet, List.all_cons, Bool.and_eq_true, Bool.or_eq_true,
    decide_eq_true_eq] at hQuiet ⊢
  obtain ⟨⟨hCall, hRest⟩, hWait⟩ := hQuiet
  constructor
  · rcases h.pushed with hNil | ⟨conn, s, _, _, rfl, _⟩ | ⟨pushed, hPushed, hAll⟩
    · rw [hNil]
      rfl
    · rcases hWait with hWait | hWait <;> cases hWait
    · rw [hPushed, List.all_append, Bool.and_eq_true, List.all_eq_true]
      exact ⟨fun c hc => (hAll c hc).isQuiet hCall, hRest⟩
  · rcases h.nextWait with hSame | ⟨ok, rfl⟩ | ⟨conn, isOpen, rfl, _⟩ | ⟨conn, rfl, _⟩ |
      ⟨conn, s, rfl, _⟩ | ⟨endpointId, relayUrl, rfl, _⟩
    · rwa [hSame]
    · exact Or.inr rfl
    · cases hCall
    · cases hCall
    · rcases hWait with hWait | hWait <;> cases hWait
    · cases hCall

omit [DecidableEq Id] in
/-- A served session wakes up to quiet calls only. -/
theorem Wait.resume_isQuiet {wait : Wait Id} (h : wait.resume n input = some task')
    (hWait : wait.kind = .pairedSession ∨ wait.kind = .over) : task'.isQuiet := by
  cases wait <;> (try · rcases hWait with hWait | hWait <;> cases hWait) <;> cases input <;>
    simp only [Wait.resume, reduceCtorEq, Option.some.injEq] at h
  case pairedRead.message conn m =>
    subst h
    cases m with
    | recognition signature =>
        simp only [onPairedMessage, onRecognition]
        split <;> rfl
    | forget signature =>
        simp only [onPairedMessage, onForget]
        split <;> rfl
    | _ => rfl
  all_goals
    subst h
    rfl

/-- A task that has returned takes no turn. -/
theorem Task.turn_returned (ok : Bool) (hLive : input ≠ .cancelled) :
    (Task.returned ok).turn n self fresh input = none := by
  cases input <;> first | rfl | exact absurd rfl hLive

/-- A quiet session stays quiet. -/
theorem Task.turn_isQuiet (h : task.turn n self fresh input = some (n', task', spawned))
    (hQuiet : task.isQuiet) : task'.isQuiet ∧ task.written input = [] := by
  obtain ⟨todo, wait⟩ := task
  rcases Task.turn_eq_some h with ⟨rfl, _, _, rfl, _⟩ | ⟨hTodo, _, _, hNext⟩ |
    ⟨call, rest, hTodo, hExec⟩
  · exact ⟨rfl, by unfold written; split <;> first | rfl | contradiction⟩
  · obtain rfl : todo = [] := hTodo
    simp only [isQuiet, Bool.and_eq_true, Bool.or_eq_true, decide_eq_true_eq] at hQuiet
    exact ⟨Wait.resume_isQuiet hNext hQuiet.2, rfl⟩
  · obtain rfl : todo = call :: rest := hTodo
    refine ⟨(Call.exec_moves hExec).isQuiet hQuiet, ?_⟩
    unfold written
    split
    · simp_all [isQuiet, Call.isQuiet]
    · rfl

end Quiet

section Store
variable {n : Node Id} {id : Id}

omit [DecidableEq Id] in
/-- A record written under the id's own text is active under it. -/
theorem Node.storesActive_remember {identity : DeviceIdentity Id} {keying : List UInt8}
    {now : UInt64} {relayUrl : Option String} (hFile : n.file = (StoreOp.remember
      (deviceOfInfo (ourInfo identity keying) now relayUrl)).apply String.toLowercase base) :
    n.StoresActive identity.id := by
  have hGet := @PairedDeviceStore.get_remember_same String.toLowercase
    (deviceOfInfo (ourInfo identity keying) now relayUrl) (toStr identity.id) rfl base
  rw [StoresActive, hFile]
  change (PairedDeviceStore.get String.toLowercase
    (PairedDeviceStore.remember String.toLowercase _ base) _).map _ = _
  rw [hGet]
  cases PairedDeviceStore.get String.toLowercase base (toStr identity.id) <;> rfl

end Store

omit [DecidableEq Id] in
/-- Both sides accept what the other says of itself. -/
theorem acceptedPeer_ourInfo (identity : DeviceIdentity Id) (keying : List UInt8) :
    acceptedPeer keying (ourInfo identity keying) = some identity.id := by
  simp [acceptedPeer, ourInfo]

namespace Handshake
variable {s : Handshake Id}

/-- Where a turn of the session leads from stage `i`. -/
inductive HostMoves (s : Handshake Id) (i : Nat) (input : Input) (written : List ControlMessage)
    (accepts : Bool) (n' : Node Id) (task' : Task Id) : Prop where
  | onward (i' : Nat) (hAt : s.HostAt i' n' task') (hLess : i < i')
      (hNext : i < 12 → i' = i + 1) (hRead : hostRead i' = hostRead i + input.heard.length)
      (hAccepts : accepts = decide (i = 3)) (hEarly : i < 4 → written = [])
      (hInfo : i = 4 → written = [.pairingInfo s.hostInfo])
      (hAdmits : i = 2 → s.Admits)
  | refused (hEarly : i ≤ 4) (hWritten : written = []) (hQuiet : task'.isQuiet)
      (hWhy : input = .fail ∨ ¬ s.Admits)
  | broken (hWhy : (input = .closed ∧ (i = 5 ∨ i = 7)) ∨ (input = .fail ∧ (i = 9 ∨ i = 10)))

omit [DecidableEq Id] in
/-- The next stage, before which nothing but the host's info is written. -/
theorem HostMoves.silently {i : Nat} {input : Input} {written : List ControlMessage}
    {accepts : Bool} {n' : Node Id} {task' : Task Id} (hAt : s.HostAt (i + 1) n' task')
    (hRead : hostRead (i + 1) = hostRead i + input.heard.length)
    (hAccepts : accepts = decide (i = 3)) (hInfo : i ≠ 4) (hWritten : i < 4 → written = [])
    (hAdmits : i = 2 → s.Admits) : s.HostMoves i input written accepts n' task' :=
  .onward (i + 1) hAt (by omega) (fun _ => rfl) hRead hAccepts hWritten
    (fun h => absurd h hInfo) hAdmits

/-- One turn takes the host to a later stage, or its pairing is refused or breaks off. -/
theorem HostAt.turn {i : Nat} {n n' : Node Id} {task task' : Task Id} {input : Input}
    {spawned : List (Task Id)} (h : s.HostAt i n task)
    (hTurn : task.turn n 0 1 input = some (n', task', spawned)) (hLive : input ≠ .cancelled)
    (conn : Connection Id)
    (hHeard : ∀ m, input = .message m → (s.joinerScript conn)[hostRead i]? = some m) :
    s.HostMoves i input (task.written input) (task.accepts input) n' task' := by
  cases h <;> cases input <;>
    simp only [Task.turn, Call.exec, Wait.resume, pairingCompleted, reduceCtorEq, if_false,
      Option.map_none, Option.map_some, Option.some.injEq, Prod.mk.injEq] at hTurn
  all_goals try exact absurd rfl hLive
  case arrived.go now =>
    split at hTurn
    · simp only [Option.some.injEq, Prod.mk.injEq] at hTurn
      obtain ⟨rfl, rfl, rfl⟩ := hTurn
      exact .silently .shaken rfl rfl (by omega) (fun _ => rfl) (by omega)
    · next hDenied =>
        simp only [Option.some.injEq, Prod.mk.injEq] at hTurn
        obtain ⟨rfl, rfl, rfl⟩ := hTurn
        refine .refused (by omega) rfl rfl (Or.inr fun hAdmits => hDenied ?_)
        rw [hAdmits.1, Bool.true_or]
  case shaken.go now =>
    obtain ⟨rfl, rfl, rfl⟩ := hTurn
    exact .silently .gated rfl rfl (by omega) (fun _ => rfl) (by omega)
  case gated.go now =>
    split at hTurn
    · next hAllowed =>
        simp only [Option.some.injEq, Prod.mk.injEq] at hTurn
        obtain ⟨rfl, rfl, rfl⟩ := hTurn
        exact .refused (by omega) rfl rfl (Or.inr fun hAdmits => hAdmits.2 hAllowed)
    · next hUnknown =>
        split at hTurn
        · next hClosed =>
            simp only [Option.some.injEq, Prod.mk.injEq] at hTurn
            obtain ⟨rfl, rfl, rfl⟩ := hTurn
            refine .refused (by omega) rfl rfl (Or.inr fun hAdmits => ?_)
            rw [hAdmits.1] at hClosed
            cases hClosed
        · next hOpen =>
            simp only [Option.some.injEq, Prod.mk.injEq] at hTurn
            obtain ⟨rfl, rfl, rfl⟩ := hTurn
            exact .silently .accepting rfl rfl (by omega) (fun _ => rfl)
              fun _ => ⟨by simpa using hOpen, hUnknown⟩
  case accepting.go now =>
    obtain ⟨rfl, rfl, rfl⟩ := hTurn
    exact .silently .greeting rfl rfl (by omega) (fun _ => rfl) (by omega)
  case accepting.fail =>
    obtain ⟨rfl, rfl, rfl⟩ := hTurn
    exact .refused (by omega) rfl rfl (Or.inl rfl)
  case greeting.go now =>
    obtain ⟨rfl, rfl, rfl⟩ := hTurn
    exact .onward 5 .listening (by omega) (fun _ => rfl) rfl rfl (by omega) (fun _ => rfl)
      (by omega)
  case greeting.fail =>
    obtain ⟨rfl, rfl, rfl⟩ := hTurn
    exact .refused (by omega) rfl rfl (Or.inl rfl)
  case listening.message m =>
    obtain ⟨rfl, rfl, rfl⟩ := hTurn
    obtain rfl : ControlMessage.pairingInfo s.joinerInfo = m := Option.some.inj (hHeard m rfl)
    refine .silently ?_ rfl rfl (by omega) (by omega) (by omega)
    have hAccepted : acceptedPeer s.hostConn.keying s.joinerInfo = some s.joiner.identity.id :=
      acceptedPeer_ourInfo s.joiner.identity s.keying
    simp only [onPairingMessage, hAccepted]
    exact .informed
  case listening.closed => exact .broken (Or.inl ⟨rfl, Or.inl rfl⟩)
  case informed.go now =>
    obtain ⟨rfl, rfl, rfl⟩ := hTurn
    exact .silently .undecided rfl rfl (by omega) (by omega) (by omega)
  case undecided.message m =>
    obtain ⟨rfl, rfl, rfl⟩ := hTurn
    obtain rfl : rememberVote conn = m := Option.some.inj (hHeard m rfl)
    exact .silently .decided rfl rfl (by omega) (by omega) (by omega)
  case undecided.closed => exact .broken (Or.inl ⟨rfl, Or.inr rfl⟩)
  case decided.go now =>
    obtain ⟨rfl, rfl, rfl⟩ := hTurn
    exact .silently (.completed now s.host.homeRelayUrl) rfl rfl (by omega) (by omega) (by omega)
  case completed.go now relayUrl now' =>
    obtain ⟨rfl, rfl, rfl⟩ := hTurn
    exact .silently (.writing now relayUrl) rfl rfl (by omega) (by omega) (by omega)
  case completed.fail => exact .broken (Or.inr ⟨rfl, Or.inl rfl⟩)
  case writing.go now relayUrl now' =>
    obtain ⟨rfl, rfl, rfl⟩ := hTurn
    exact .silently (.remembered _ (Node.storesActive_remember rfl)) rfl rfl (by omega) (by omega)
      (by omega)
  case writing.fail => exact .broken (Or.inr ⟨rfl, Or.inr rfl⟩)
  case remembered.go hActive now =>
    obtain ⟨rfl, rfl, rfl⟩ := hTurn
    exact .silently (.allowed _ hActive (Finset.mem_insert_self _ _)) rfl rfl (by omega) (by omega)
      (by omega)
  case allowed.go hActive hAllowed now =>
    obtain ⟨rfl, rfl, rfl⟩ := hTurn
    exact .silently (.refreshing _ _ hActive hAllowed) rfl rfl (by omega) (by omega) (by omega)
  case allowed.fail hActive hAllowed =>
    -- a list that cannot be read is not refreshed
    obtain ⟨rfl, rfl, rfl⟩ := hTurn
    exact .onward 14 (.refreshed _ hActive hAllowed) (by omega) (by omega) rfl rfl (by omega)
      (by omega) (by omega)
  case refreshing.go active hActive hAllowed now =>
    obtain ⟨rfl, rfl, rfl⟩ := hTurn
    exact .silently (.refreshed _ hActive hAllowed) rfl rfl (by omega) (by omega) (by omega)
  case refreshed.go hActive hAllowed now =>
    obtain ⟨rfl, rfl, rfl⟩ := hTurn
    exact .silently (.reported _ hActive hAllowed) rfl rfl (by omega) (by omega) (by omega)
  case reported.go hActive hAllowed now | reported.fail hActive hAllowed =>
    obtain ⟨rfl, rfl, rfl⟩ := hTurn
    exact .silently (.voted _ hActive hAllowed) rfl rfl (by omega) (by omega) (by omega)
  case voted.go hActive hAllowed now =>
    split at hTurn
    · simp only [Option.some.injEq, Prod.mk.injEq] at hTurn
      obtain ⟨rfl, rfl, rfl⟩ := hTurn
      exact .onward 18 (.holding _ hActive hAllowed) (by omega) (by omega) rfl rfl (by omega)
        (by omega) (by omega)
    · simp only [Option.some.injEq, Prod.mk.injEq] at hTurn
      obtain ⟨rfl, rfl, rfl⟩ := hTurn
      exact .silently (.closing _ hActive hAllowed) rfl rfl (by omega) (by omega) (by omega)
  case closing.go hActive hAllowed now =>
    obtain ⟨rfl, rfl, rfl⟩ := hTurn
    exact .silently (.holding _ hActive hAllowed) rfl rfl (by omega) (by omega) (by omega)
  case holding.closed hActive hAllowed =>
    obtain ⟨rfl, rfl, rfl⟩ := hTurn
    exact .silently (.finished _ hActive hAllowed) rfl rfl (by omega) (by omega) (by omega)
  all_goals cases hTurn

/-- Where a turn of `join_pairing` leads from stage `j`. The connection is
chosen by its first turn. -/
inductive JoinMoves (s : Handshake Id) (conn : Connection Id) (j : Nat) (input : Input)
    (written : List ControlMessage) (n' : Node Id) (task' : Task Id) : Prop where
  | onward (j' : Nat) (conn' : Connection Id) (hAt : s.JoinAt conn' j' n' task') (hLess : j < j')
      (hNext : j < 9 → j' = j + 1)
      (hConn : conn' = conn ∨ (j = 0 ∧ conn'.keying = s.keying))
      (hHeard : j ≤ 3 → input.heard = []) (hGreeted : j = 4 → ∃ m, input = .message m)
      (hSent : (s.joinerScript conn').take (joinerSent j') =
        (s.joinerScript conn').take (joinerSent j) ++ written)
  | failed (hTask : task' = Task.returned false) (hWritten : written = [])
      (hWhy : input = .fail ∨ (input = .closed ∧ j = 4))

omit [DecidableEq Id] in
/-- The next stage, before which nothing is written. -/
theorem JoinMoves.silently {conn : Connection Id} {j : Nat} {input : Input}
    {written : List ControlMessage} {n' : Node Id} {task' : Task Id}
    (hAt : s.JoinAt conn (j + 1) n' task') (hHeard : j ≤ 3 → input.heard = [])
    (hGreeted : j = 4 → ∃ m, input = .message m) (hSent : joinerSent (j + 1) = joinerSent j)
    (hWritten : written = []) : s.JoinMoves conn j input written n' task' :=
  .onward (j + 1) conn hAt (by omega) (fun _ => rfl) (Or.inl rfl) hHeard hGreeted
    (by rw [hSent, hWritten, List.append_nil])

/-- One turn takes the joiner to its next stage, or ends it. -/
theorem JoinAt.turn {conn : Connection Id} {j : Nat} {n n' : Node Id} {task task' : Task Id}
    {input : Input} {spawned : List (Task Id)} (h : s.JoinAt conn j n task)
    (hTurn : task.turn n 0 1 input = some (n', task', spawned)) (hLive : input ≠ .cancelled)
    (hConn : conn.keying = s.keying)
    (hDialled : ∀ keying id sessionId, input = .connected keying id sessionId → keying = s.keying)
    (hHeard : ∀ m, j ≤ 4 → input = .message m → m = .pairingInfo s.hostInfo) :
    s.JoinMoves conn j input (task.written input) n' task' := by
  cases h <;> cases input <;>
    simp only [Task.turn, Call.exec, Wait.resume, reduceCtorEq, if_false, if_true,
      Option.map_none, Option.map_some, Option.some.injEq, Prod.mk.injEq] at hTurn
  all_goals try exact absurd rfl hLive
  case connecting.connected keying id sessionId =>
    obtain ⟨rfl, rfl, rfl⟩ := hTurn
    exact .onward 1 ⟨id, s.host.identity.id, keying, sessionId⟩ .connected (by omega)
      (fun _ => rfl) (Or.inr ⟨rfl, hDialled keying id sessionId rfl⟩) (fun _ => rfl) (by omega) rfl
  case connected.go now =>
    obtain ⟨rfl, rfl, rfl⟩ := hTurn
    rw [hConn]
    exact .silently .opened (fun _ => rfl) (by omega) rfl rfl
  case opened.go now =>
    obtain ⟨rfl, rfl, rfl⟩ := hTurn
    exact .onward 3 conn .introduced (by omega) (fun _ => rfl) (Or.inl rfl) (fun _ => rfl)
      (by omega) rfl
  case introduced.go now =>
    obtain ⟨rfl, rfl, rfl⟩ := hTurn
    exact .onward 4 conn .listening (by omega) (fun _ => rfl) (Or.inl rfl) (fun _ => rfl)
      (by omega) rfl
  case listening.message m =>
    obtain ⟨rfl, rfl, rfl⟩ := hTurn
    obtain rfl := hHeard m (by omega) rfl
    refine .silently ?_ (by omega) (fun _ => ⟨_, rfl⟩) rfl rfl
    have hAccepted : acceptedPeer conn.keying s.hostInfo = some s.host.identity.id := by
      rw [hConn]
      exact acceptedPeer_ourInfo s.host.identity s.keying
    simp only [onHostInfo, hAccepted]
    exact .informed
  case listening.closed =>
    obtain ⟨rfl, rfl, rfl⟩ := hTurn
    exact .failed rfl rfl (Or.inr ⟨rfl, rfl⟩)
  case informed.go now =>
    obtain ⟨rfl, rfl, rfl⟩ := hTurn
    exact .silently (.remembering now) (by omega) (by omega) rfl rfl
  case remembering.go now now' =>
    obtain ⟨rfl, rfl, rfl⟩ := hTurn
    exact .silently (.writing now) (by omega) (by omega) rfl rfl
  case writing.go now now' =>
    obtain ⟨rfl, rfl, rfl⟩ := hTurn
    exact .silently (.remembered _ (Node.storesActive_remember rfl)) (by omega) (by omega) rfl rfl
  case remembered.go hActive now =>
    obtain ⟨rfl, rfl, rfl⟩ := hTurn
    exact .silently (.allowed _ hActive (Finset.mem_insert_self _ _)) (by omega) (by omega) rfl rfl
  case allowed.go hActive hAllowed now =>
    obtain ⟨rfl, rfl, rfl⟩ := hTurn
    exact .silently (.refreshing _ _ hActive hAllowed) (by omega) (by omega) rfl rfl
  case allowed.fail hActive hAllowed =>
    obtain ⟨rfl, rfl, rfl⟩ := hTurn
    exact .onward 11 conn (.refreshed _ hActive hAllowed) (by omega) (by omega) (Or.inl rfl) (by omega)
      (by omega) rfl
  case refreshing.go active hActive hAllowed now =>
    obtain ⟨rfl, rfl, rfl⟩ := hTurn
    exact .silently (.refreshed _ hActive hAllowed) (by omega) (by omega) rfl rfl
  case refreshed.go hActive hAllowed now =>
    obtain ⟨rfl, rfl, rfl⟩ := hTurn
    exact .silently (.leaving _ hActive hAllowed) (by omega) (by omega) rfl rfl
  case leaving.go hActive hAllowed now =>
    obtain ⟨rfl, rfl, rfl⟩ := hTurn
    exact .silently (.finished _ hActive hAllowed) (by omega) (by omega) rfl rfl
  case connecting.fail | connected.fail | opened.fail | introduced.fail | remembering.fail |
      writing.fail =>
    obtain ⟨rfl, rfl, rfl⟩ := hTurn
    exact .failed rfl rfl (Or.inl rfl)
  all_goals cases hTurn

omit [DecidableEq Id] in
/-- A joiner that returned well has been through all stages. -/
theorem JoinAt.of_returned {conn : Connection Id} {j : Nat} {n : Node Id} {task : Task Id}
    (h : s.JoinAt conn j n task) (hOk : task = Task.returned true) : j = 13 := by
  cases h <;> first | rfl | cases hOk

end Handshake

namespace Link
variable {link link' : Link Id} {input : Input}

/-- A turn of the host: its input, and what it does to the link. -/
theorem next_host_eq_some (h : link.next (.host input) = some link') :
    answers link.keying link.toHost input ∧
      (link.hostTask.accepts input → link.accepted = false ∧ link.toHost ≠ []) ∧
      ∃ host hostTask spawned,
        link.hostTask.turn link.host 0 1 input = some (host, hostTask, spawned) ∧
        link' = { link with
          host, hostTask
          toHost := link.toHost.drop input.heard.length
          toJoiner := link.toJoiner ++ link.hostTask.written input
          accepted := link.accepted || link.hostTask.accepts input
          received := link.received ++ input.heard } := by
  simp only [next] at h
  split at h
  · next hReady =>
      obtain ⟨⟨host, hostTask, spawned⟩, hTurn, rfl⟩ := Option.map_eq_some_iff.mp h
      exact ⟨hReady.1, hReady.2, host, hostTask, spawned, hTurn, rfl⟩
  · cases h

/-- A turn of the joiner: its input, and what it does to the link. -/
theorem next_joiner_eq_some (h : link.next (.joiner input) = some link') :
    answers link.keying link.toJoiner input ∧
      ∃ joiner joinTask spawned,
        link.joinTask.turn link.joiner 0 1 input = some (joiner, joinTask, spawned) ∧
        link' = { link with
          joiner, joinTask
          toHost := link.toHost ++ link.joinTask.written input
          toJoiner := link.toJoiner.drop input.heard.length } := by
  simp only [next] at h
  split at h
  · next hReady =>
      obtain ⟨⟨joiner, joinTask, spawned⟩, hTurn, rfl⟩ := Option.map_eq_some_iff.mp h
      exact ⟨hReady, joiner, joinTask, spawned, hTurn, rfl⟩
  · cases h

section Answers
variable {keying : List UInt8} {stream : List ControlMessage}

theorem not_cancelled (h : answers keying stream input) : input ≠ .cancelled := by
  rintro rfl
  cases h

theorem head_of_answers {m : ControlMessage} (h : answers keying stream (.message m)) :
    stream.head? = some m := by simpa [answers] using h

/-- What is heard was at the front of the stream. -/
theorem heard_append_drop (h : answers keying stream input) :
    input.heard ++ stream.drop input.heard.length = stream := by
  cases input with
  | message m =>
      cases stream with
      | nil => cases h
      | cons first rest =>
          obtain rfl : first = m := Option.some.inj (head_of_answers h)
          rfl
  | _ => rfl

end Answers

/-- Both sides are at a stage of the pairing, and the stream between them
holds what was written and not yet read. -/
structure PairingAt (s : Handshake Id) (link : Link Id) (conn : Connection Id) (i j : Nat) :
    Prop where
  host : s.HostAt i link.host link.hostTask
  join : s.JoinAt conn j link.joiner link.joinTask
  keying : link.keying = s.keying
  connKeying : conn.keying = s.keying
  stream : link.received ++ link.toHost = (s.joinerScript conn).take (Handshake.joinerSent j)
  read : link.received.length = Handshake.hostRead i
  toJoiner : j ≤ 4 → link.toJoiner.head? = if 5 ≤ i then some (.pairingInfo s.hostInfo) else none
  accepted : link.accepted = decide (4 ≤ i)
  opened : 4 ≤ i → 3 ≤ j
  greeted : 5 ≤ j → 5 ≤ i

/-- The host does not pair, and the joiner waits for it in vain. -/
structure RefusedAt (s : Handshake Id) (link : Link Id) (conn : Connection Id) (j : Nat) :
    Prop where
  quiet : link.hostTask.isQuiet
  join : s.JoinAt conn j link.joiner link.joinTask
  keying : link.keying = s.keying
  connKeying : conn.keying = s.keying
  waiting : j ≤ 4
  toJoiner : link.toJoiner = []

variable {s : Handshake Id} {conn : Connection Id} {i j : Nat}

omit [DecidableEq Id] in
/-- At the start both sides stand before their first stage. -/
theorem pairingAt_start (s : Handshake Id) :
    PairingAt s s.link ⟨0, s.host.identity.id, s.keying, ""⟩ 0 0 where
  host := .arrived
  join := by
    simp only [Handshake.link, Command.start, pairingTicket, fromStr_toStr]
    exact .connecting
  keying := rfl
  connKeying := rfl
  stream := rfl
  read := rfl
  toJoiner := fun _ => rfl
  accepted := rfl
  opened := by omega
  greeted := by omega

omit [DecidableEq Id] in
/-- The next message of the stream is the next of what the joiner writes. -/
theorem PairingAt.heard (h : PairingAt s link conn i j)
    (hAnswers : answers link.keying link.toHost input) (m : ControlMessage)
    (hInput : input = .message m) :
    (s.joinerScript conn)[Handshake.hostRead i]? = some m := by
  subst hInput
  have hStream := h.stream
  rw [← heard_append_drop hAnswers] at hStream
  have hNext : ((s.joinerScript conn).take (Handshake.joinerSent j))[link.received.length]? =
      some m := by
    rw [← hStream]
    simp [Input.heard]
  rw [List.getElem?_take, h.read] at hNext
  split at hNext
  · exact hNext
  · cases hNext

omit [DecidableEq Id] in
/-- Before the host has written its part, nothing is on the way to the joiner. -/
theorem PairingAt.toJoiner_nil (h : PairingAt s link conn i j) (hi : i ≤ 4) :
    j ≤ 4 ∧ link.toJoiner = [] := by
  have hj : j ≤ 4 := by
    by_contra hLate
    have hGreeted := h.greeted (by omega)
    omega
  have hHead := h.toJoiner hj
  rw [if_neg (by omega), List.head?_eq_none_iff] at hHead
  exact ⟨hj, hHead⟩

/-- Where a turn of the host leads. -/
theorem PairingAt.host_step (h : PairingAt s link conn i j)
    (hStep : link.next (.host input) = some link') :
    (∃ i', i < i' ∧ (i < 12 → i' = i + 1) ∧ (i = 2 → s.Admits) ∧ PairingAt s link' conn i' j) ∨
      (RefusedAt s link' conn j ∧ (input = .fail ∨ ¬ s.Admits)) ∨
      ((input = .closed ∧ (i = 5 ∨ i = 7)) ∨ (input = .fail ∧ (i = 9 ∨ i = 10))) := by
  obtain ⟨hAnswers, hOpen, host, hostTask, spawned, hTurn, rfl⟩ := next_host_eq_some hStep
  cases h.host.turn hTurn (not_cancelled hAnswers) conn (h.heard hAnswers) with
  | onward i' hAt hLess hNext hRead hAccepts hEarly hInfo hAdmits =>
      refine Or.inl ⟨i', hLess, hNext, hAdmits, hAt, h.join, h.keying, h.connKeying, ?_, ?_, ?_,
        ?_, ?_, ?_⟩
      · rw [List.append_assoc, heard_append_drop hAnswers, h.stream]
      · rw [List.length_append, h.read, hRead]
      · intro hj
        have hHead := h.toJoiner hj
        rcases Nat.lt_trichotomy i 4 with hi | rfl | hi
        · rw [if_neg (by omega), List.head?_eq_none_iff] at hHead
          rw [if_neg (by omega), hHead, hEarly hi]
          rfl
        · rw [if_neg (by omega), List.head?_eq_none_iff] at hHead
          rw [if_pos (by omega), hHead, hInfo rfl]
          rfl
        · rw [if_pos (by omega)] at hHead
          rw [if_pos (by omega), List.head?_append, hHead]
          rfl
      · rw [h.accepted, hAccepts, ← Bool.decide_or, decide_eq_decide]
        by_cases hi : i < 12
        · have hi' := hNext hi
          omega
        · omega
      · intro hi'
        by_cases hi : i = 3
        · -- a stream is accepted once the joiner has written to it
          have hWritten := (hOpen (by rw [hAccepts, hi]; rfl)).2
          by_contra hj
          have hNone := h.stream
          rw [Handshake.joinerSent, if_pos (by omega), List.take_zero,
            List.append_eq_nil_iff] at hNone
          exact hWritten hNone.2
        · by_cases hLate : 4 ≤ i
          · exact h.opened hLate
          · have hi'' := hNext (by omega)
            omega
      · intro hj
        have hGreeted := h.greeted hj
        omega
  | refused hEarly hWritten hQuiet hWhy =>
      obtain ⟨hj, hNone⟩ := h.toJoiner_nil hEarly
      refine Or.inr (Or.inl ⟨⟨hQuiet, h.join, h.keying, h.connKeying, hj, ?_⟩, hWhy⟩)
      rw [hNone, hWritten, List.append_nil]
  | broken hWhy => exact Or.inr (Or.inr hWhy)

/-- Nothing the joiner does or hears brings a failed `join_pairing` back. -/
theorem failed_step {l : Label} (hFailed : link.joinTask = Task.returned false)
    (hStep : link.next l = some link') : link'.joinTask = Task.returned false := by
  cases l with
  | host input =>
      obtain ⟨_, _, _, _, _, _, rfl⟩ := next_host_eq_some hStep
      exact hFailed
  | joiner input =>
      obtain ⟨hAnswers, _, _, _, hTurn, _⟩ := next_joiner_eq_some hStep
      rw [hFailed, Task.turn_returned false (not_cancelled hAnswers)] at hTurn
      cases hTurn

omit [DecidableEq Id] in
theorem dialled_of_answers {keying : List UInt8} {stream : List ControlMessage}
    (hAnswers : answers keying stream input) (keying' : List UInt8) (id : Nat)
    (sessionId : String) (hInput : input = .connected keying' id sessionId) : keying' = keying := by
  subst hInput
  exact eq_of_beq hAnswers

/-- Where a turn of the joiner leads. -/
theorem PairingAt.joiner_step (h : PairingAt s link conn i j)
    (hStep : link.next (.joiner input) = some link') :
    (∃ j' conn', j < j' ∧ PairingAt s link' conn' i j') ∨
      (link'.joinTask = Task.returned false ∧
        (input = .fail ∨ (input = .closed ∧ j = 4))) := by
  obtain ⟨hAnswers, joiner, joinTask, spawned, hTurn, rfl⟩ := next_joiner_eq_some hStep
  have hHead : ∀ m, j ≤ 4 → input = .message m → 5 ≤ i ∧ m = .pairingInfo s.hostInfo := by
    rintro m hj rfl
    have hFront := head_of_answers hAnswers
    rw [h.toJoiner hj] at hFront
    split at hFront
    · next hi => exact ⟨hi, (Option.some.inj hFront).symm⟩
    · cases hFront
  cases h.join.turn hTurn (not_cancelled hAnswers) h.connKeying
    (h.keying ▸ dialled_of_answers hAnswers) (fun m hj hInput => (hHead m hj hInput).2) with
  | onward j' conn' hAt hLess hNext hConn hHeard hGreeted hSent =>
      refine Or.inl ⟨j', conn', hLess, h.host, hAt, h.keying, ?_, ?_, h.read, ?_, h.accepted, ?_,
        ?_⟩
      · rcases hConn with rfl | ⟨_, hKeying⟩
        · exact h.connKeying
        · exact hKeying
      · have hSame : (s.joinerScript conn').take (Handshake.joinerSent j) =
            (s.joinerScript conn).take (Handshake.joinerSent j) := by
          rcases hConn with rfl | ⟨rfl, _⟩ <;> rfl
        rw [hSent, hSame, ← h.stream, List.append_assoc]
      · intro hj'
        rw [hHeard (by omega)]
        exact h.toJoiner (by omega)
      · intro hi
        have hOpened := h.opened hi
        omega
      · intro hj'
        by_cases hj : j = 4
        · obtain ⟨m, hInput⟩ := hGreeted hj
          exact (hHead m (by omega) hInput).1
        · by_cases hLate : 5 ≤ j
          · exact h.greeted hLate
          · have hj'' := hNext (by omega)
            omega
  | failed hTask _ hWhy => exact Or.inr ⟨hTask, hWhy⟩

/-- A step of the host leaves a refused pairing refused. -/
theorem RefusedAt.host_step (h : RefusedAt s link conn j)
    (hStep : link.next (.host input) = some link') : RefusedAt s link' conn j := by
  obtain ⟨_, _, host, hostTask, spawned, hTurn, rfl⟩ := next_host_eq_some hStep
  obtain ⟨hQuiet, hWritten⟩ := Task.turn_isQuiet hTurn h.quiet
  refine ⟨hQuiet, h.join, h.keying, h.connKeying, h.waiting, ?_⟩
  rw [h.toJoiner, hWritten, List.append_nil]

/-- Nothing comes from a host that refused. -/
theorem RefusedAt.joiner_step (h : RefusedAt s link conn j)
    (hStep : link.next (.joiner input) = some link') :
    (∃ j' conn', RefusedAt s link' conn' j') ∨ link'.joinTask = Task.returned false := by
  obtain ⟨hAnswers, joiner, joinTask, spawned, hTurn, rfl⟩ := next_joiner_eq_some hStep
  have hSilence : ∀ m, input ≠ .message m := by
    rintro m rfl
    have hFront := head_of_answers hAnswers
    rw [h.toJoiner] at hFront
    cases hFront
  cases h.join.turn hTurn (not_cancelled hAnswers) h.connKeying
    (h.keying ▸ dialled_of_answers hAnswers) (fun m _ hInput => absurd hInput (hSilence m)) with
  | onward j' conn' hAt hLess hNext hConn _ hGreeted _ =>
      have hWaiting := h.waiting
      have hNotYet : j ≠ 4 := by
        intro hj
        obtain ⟨m, hInput⟩ := hGreeted hj
        exact hSilence m hInput
      have hj' := hNext (by omega)
      refine Or.inl ⟨j', conn', h.quiet, hAt, h.keying, ?_, by omega, ?_⟩
      · rcases hConn with rfl | ⟨_, hKeying⟩
        · exact h.connKeying
        · exact hKeying
      · rw [h.toJoiner, List.drop_nil]
  | failed hTask _ _ => exact Or.inr hTask

/-- No pairing will come of this connection. -/
def Lost (s : Handshake Id) (link : Link Id) : Prop :=
  (∃ conn j, RefusedAt s link conn j) ∨ link.joinTask = Task.returned false

/-- A pairing that was lost stays lost. -/
theorem Lost.step (h : Lost s link) {l : Label} (hStep : link.next l = some link') :
    Lost s link' := by
  rcases h with ⟨conn, j, hRefused⟩ | hFailed
  · cases l with
    | host input => exact Or.inl ⟨conn, j, hRefused.host_step hStep⟩
    | joiner input =>
        rcases hRefused.joiner_step hStep with ⟨j', conn', hNext⟩ | hFailed
        · exact Or.inl ⟨conn', j', hNext⟩
        · exact Or.inr hFailed
  · exact Or.inr (failed_step hFailed hStep)

omit [DecidableEq Id] in
/-- A lost pairing is never joined. -/
theorem Lost.not_joined (h : Lost s link) : link.joinTask ≠ Task.returned true := by
  intro hJoined
  rcases h with ⟨conn, j, hRefused⟩ | hFailed
  · have hWaiting := hRefused.waiting
    rw [hRefused.join.of_returned hJoined] at hWaiting
    omega
  · rw [hFailed] at hJoined
    cases hJoined

end Link

end AltSendme
