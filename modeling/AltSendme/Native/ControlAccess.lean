import AltSendme.Native.PairingIdentity

/-! Whose control messages reach the user. A paired session asks the allowlist
once, when it is accepted; its loop, the reader of an outbound connection and
the invite responses of a pairing session never ask again. -/
namespace AltSendme

variable {Id : Type} [EndpointKeys Id]
open EndpointKeys (toStr)
open Execution (exec Meets)

/-- The remote whose messages this wait hands to the user unasked. -/
def Wait.reader : Wait Id → Option Id
  | .pairedExport conn | .pairedAccept conn | .pairedRead conn => some conn.remote
  | .outboundAccept _ _ conn | .outboundRead _ _ conn => some conn.remote
  | _ => none

/-- The remote whose invite, or response to one, this call is about to report. -/
def Call.inviteFrom : Call Id → Option String
  | .emit event => event.inviteFrom
  | .emitInviteResponse remote _ => some (toStr remote)
  | _ => none

/-- A task that reads for `remote`, or is about to report a message of it. -/
def Task.ReadsFor (task : Task Id) (remote : Id) : Prop :=
  task.wait.reader = some remote ∨ ∃ call ∈ task.todo, call.inviteFrom = some (toStr remote)

instance [DecidableEq Id] (task : Task Id) (remote : Id) : Decidable (task.ReadsFor remote) := by
  unfold Task.ReadsFor
  infer_instance

/-- Whatever a task reads or is about to report is an allowed peer's. -/
def ReadsAllowed (n : Node Id) (task : Task Id) : Prop :=
  (∀ remote, task.wait.reader = some remote → remote ∈ n.access.allowed) ∧
    ∀ call ∈ task.todo, ∀ endpointId, call.inviteFrom = some endpointId →
      ∃ remote ∈ n.access.allowed, endpointId = toStr remote

theorem Call.inviteFrom_of_isUnpairing {c : Call Id} (h : c.isUnpairing = true) :
    c.inviteFrom = none := by
  unfold isUnpairing at h
  split at h <;> first | rfl | cases h

theorem Call.inviteFrom_of_isFirst {c : Call Id} (h : c.isFirst = true) :
    c.inviteFrom = none := by
  unfold isFirst at h
  split at h
  all_goals first
    | rfl
    | exact Option.isNone_iff_eq_none.mp h
    | cases h

omit [EndpointKeys Id] in
theorem Wait.reader_of_isFirst {wait : Wait Id} (h : wait.isFirst = true) :
    wait.reader = none := by
  cases wait <;> first | rfl | cases h

/-- A new task reads nobody's messages yet. -/
theorem NewTask.readsAllowed {task : Task Id} (h : NewTask task) (n : Node Id) :
    ReadsAllowed n task := by
  obtain ⟨hTodo, hWait⟩ := h.isFirst
  refine ⟨?_, ?_⟩
  · intro remote hReader
    rw [Wait.reader_of_isFirst hWait] at hReader
    cases hReader
  · intro call hMem endpointId hInvite
    rw [Call.inviteFrom_of_isFirst (List.all_eq_true.mp hTodo call hMem)] at hInvite
    cases hInvite

theorem readsAllowed_of_silent {n : Node Id} {todo : List (Call Id)} {wait : Wait Id}
    (hReader : ∀ remote, wait.reader = some remote → remote ∈ n.access.allowed)
    (hSilent : todo.all (·.inviteFrom.isNone) = true) : ReadsAllowed n ⟨todo, wait⟩ := by
  refine ⟨hReader, ?_⟩
  intro call hMem endpointId hInvite
  have hNone := List.all_eq_true.mp hSilent call hMem
  rw [hInvite] at hNone
  cases hNone

theorem readsAllowed_returned (n : Node Id) (ok : Bool) : ReadsAllowed n (Task.returned ok) :=
  readsAllowed_of_silent (fun _ hNone => (nomatch hNone)) rfl

/-- Only a paired peer's invite and a call that was there already report. -/
theorem Call.Pushes.inviteFrom {n : Node Id} {fresh : Nat} {call c : Call Id}
    (h : call.Pushes n fresh c) {endpointId : String} (hInvite : c.inviteFrom = some endpointId) :
    ∃ remote ∈ n.access.allowed, endpointId = toStr remote := by
  cases h with
  | invited conn invite hAllowed =>
      exact ⟨conn.remote, hAllowed, (Option.some.inj hInvite).symm⟩
  | registered conn isOpen c h =>
      simp only [registerInbound, setSession, List.mem_cons, List.not_mem_nil, or_false] at h
      rcases h with rfl | rfl | rfl | rfl <;> cases hInvite
  | unpairedKept op cont c h | unpaired op base cont c h =>
      rw [inviteFrom_of_isUnpairing h] at hInvite
      cases hInvite
  | _ => cases hInvite

/-- Working off a call, a task reads an allowed peer only. -/
theorem ReadsAllowed.of_moves {n : Node Id} {fresh : Nat} {wait : Wait Id} {call : Call Id}
    {rest : List (Call Id)} {task' : Task Id} (hTask : ReadsAllowed n ⟨call :: rest, wait⟩)
    (h : call.Moves n fresh wait rest task') : ReadsAllowed n task' := by
  refine ⟨?_, ?_⟩
  · intro remote hReader
    rcases h.nextWait with hSame | ⟨_, rfl⟩ | ⟨conn, _, _, hAllowed, hNext⟩ | ⟨_, _, _, hNext⟩ |
      ⟨_, _, _, hNext | ⟨_, hNext⟩⟩ | ⟨_, _, _, hNext⟩
    · exact hTask.1 remote (hSame ▸ hReader)
    · cases hReader
    · rw [hNext] at hReader
      cases hReader
      exact hAllowed
    all_goals
      rw [hNext] at hReader
      cases hReader
  · intro c hMem endpointId hInvite
    rcases h.pushed with hNone | ⟨_, _, _, _, _, _, rfl⟩ | ⟨pushed, hTodo, hPushed⟩
    · rw [hNone] at hMem
      cases hMem
    · simp only [pairingCompleted, List.mem_cons, List.not_mem_nil, or_false] at hMem
      rcases hMem with rfl | rfl | rfl | rfl | rfl | rfl <;> cases hInvite
    · rw [hTodo] at hMem
      rcases List.mem_append.mp hMem with hNew | hOld
      · exact (hPushed c hNew).inviteFrom hInvite
      · exact hTask.2 c (List.mem_cons_of_mem call hOld) endpointId hInvite

/-- What an answer may start to read or report. -/
def Wait.Admits (n : Node Id) : Wait Id → Input → Prop
  | .pairing conn _, .message (.inviteResponse _ _) => conn.remote ∈ n.access.allowed
  | .recognizing _ _ conn, .go _ => conn.remote ∈ n.access.allowed
  | _, _ => True

section Answers
variable {n : Node Id} {conn : Connection Id}

theorem onRecognition_inviteFrom (signature : String) :
    ∀ call ∈ onRecognition conn signature, call.inviteFrom = none := by
  unfold onRecognition
  split <;> simp [Call.inviteFrom]

theorem onForget_inviteFrom (signature : String) (paired : Bool) :
    ∀ call ∈ onForget conn signature paired, call.inviteFrom = none := by
  unfold onForget
  split <;> simp [Call.inviteFrom]

/-- The paired loop goes on reading the allowed peer it has read. -/
theorem onPairedMessage_readsAllowed (m : ControlMessage)
    (hAllowed : conn.remote ∈ n.access.allowed) : ReadsAllowed n (onPairedMessage conn m) := by
  refine ⟨?_, ?_⟩
  · intro remote hReader
    rcases (onPairedMessage_isAnswer conn m).2 with hWait | hWait
    · rw [hWait] at hReader
      cases hReader
      exact hAllowed
    · rw [hWait] at hReader
      cases hReader
  · intro call hMem endpointId hInvite
    cases m with
    | invite invite =>
        obtain rfl := List.mem_singleton.mp hMem
        exact ⟨conn.remote, hAllowed, (Option.some.inj hInvite).symm⟩
    | inviteResponse _ response =>
        obtain rfl := List.mem_singleton.mp hMem
        exact ⟨conn.remote, hAllowed, (Option.some.inj hInvite).symm⟩
    | recognition signature =>
        rw [onRecognition_inviteFrom signature call hMem] at hInvite
        cases hInvite
    | forget signature =>
        unfold onPairedMessage at hMem
        dsimp only at hMem
        split at hMem
        · rcases List.mem_append.mp hMem with hForget | hRemove
          · rw [onForget_inviteFrom signature true call hForget] at hInvite
            cases hInvite
          · obtain rfl := List.mem_singleton.mp hRemove
            cases hInvite
        · cases hMem
    | pairingInfo | rememberVote => cases hMem

/-- The outbound loop goes on reading the allowed peer it has read. -/
theorem onOutboundMessage_readsAllowed (endpointId : String) (relayUrl : Option String)
    (m : ControlMessage) (hAllowed : conn.remote ∈ n.access.allowed) :
    ReadsAllowed n (onOutboundMessage endpointId relayUrl conn m) := by
  refine ⟨?_, ?_⟩
  · intro remote hReader
    rw [(onOutboundMessage_isAnswer conn m endpointId relayUrl).2] at hReader
    cases hReader
    exact hAllowed
  · intro call hMem endpointId' hInvite
    cases m with
    | invite invite =>
        obtain rfl := List.mem_singleton.mp hMem
        exact ⟨conn.remote, hAllowed, (Option.some.inj hInvite).symm⟩
    | inviteResponse _ response =>
        obtain rfl := List.mem_singleton.mp hMem
        exact ⟨conn.remote, hAllowed, (Option.some.inj hInvite).symm⟩
    | recognition signature =>
        rw [onRecognition_inviteFrom signature call hMem] at hInvite
        cases hInvite
    | pairingInfo | rememberVote | forget => cases hMem

/-- The pairing loop takes an invite's response from an allowed peer only. -/
theorem onPairingMessage_readsAllowed (s : PairingSession) (m : ControlMessage)
    (hResponse : ∀ sessionId response, m = .inviteResponse sessionId response →
      conn.remote ∈ n.access.allowed) : ReadsAllowed n (onPairingMessage conn s m) := by
  refine ⟨?_, ?_⟩
  · intro remote hReader
    obtain ⟨_, s', hWait⟩ := onPairingMessage_isAnswer conn m s
    rw [hWait] at hReader
    cases hReader
  · intro call hMem endpointId hInvite
    cases m with
    | pairingInfo info =>
        unfold onPairingMessage at hMem
        dsimp only at hMem
        split at hMem
        · cases hMem
        · obtain rfl := List.mem_singleton.mp hMem
          cases hInvite
    | rememberVote | invite =>
        obtain rfl := List.mem_singleton.mp hMem
        cases hInvite
    | inviteResponse sessionId response =>
        simp only [onPairingMessage, List.mem_cons, List.not_mem_nil, or_false] at hMem
        rcases hMem with rfl | rfl
        · exact ⟨conn.remote, hResponse sessionId response rfl, (Option.some.inj hInvite).symm⟩
        · cases hInvite
    | recognition signature =>
        rcases List.mem_append.mp hMem with hOwn | hLast
        · rw [onRecognition_inviteFrom signature call hOwn] at hInvite
          cases hInvite
        · obtain rfl := List.mem_singleton.mp hLast
          cases hInvite
    | forget signature =>
        rcases List.mem_append.mp hMem with hOwn | hLast
        · rw [onForget_inviteFrom signature false call hOwn] at hInvite
          cases hInvite
        · obtain rfl := List.mem_singleton.mp hLast
          cases hInvite

/-- Waking up, a task reads an allowed peer only. -/
theorem ReadsAllowed.of_resume {wait : Wait Id} {input : Input} {task' : Task Id}
    (hReader : ∀ remote, wait.reader = some remote → remote ∈ n.access.allowed)
    (hAdmits : wait.Admits n input) (h : wait.resume n input = some task') :
    ReadsAllowed n task' := by
  cases wait <;> cases input <;>
    simp only [Wait.resume, reduceCtorEq, Option.some.injEq, Option.map_eq_some_iff] at h
  case pairing.message other s m =>
    subst h
    refine onPairingMessage_readsAllowed s m ?_
    rintro sessionId response rfl
    exact hAdmits
  case pairing.closed other s =>
    subst h
    unfold pairingLoopEnded
    refine readsAllowed_of_silent (fun remote hNone => ?_) ?_
    · split at hNone <;> cases hNone
    · split <;> rfl
  case pairedRead.message other m =>
    subst h
    exact onPairedMessage_readsAllowed m (hReader other.remote rfl)
  case outboundRead.message endpointId relayUrl other m =>
    subst h
    exact onOutboundMessage_readsAllowed endpointId relayUrl m (hReader other.remote rfl)
  case joinRead.message other relayUrl m =>
    subst h
    unfold onHostInfo
    split
    · split
      · exact readsAllowed_returned n false
      · exact readsAllowed_of_silent (fun _ hNone => by cases hNone) rfl
    · exact readsAllowed_returned n false
  case recognizing.go endpointId relayUrl other now =>
    subst h
    refine readsAllowed_of_silent (fun remote hSame => ?_) rfl
    cases hSame
    exact hAdmits
  case connecting.connected | notifyWait.go =>
    obtain ⟨_, _, rfl⟩ := h
    exact readsAllowed_of_silent (fun _ hNone => by cases hNone) rfl
  case supervising.go =>
    split at h
    · cases h
      exact readsAllowed_returned n true
    · cases h
      exact readsAllowed_of_silent (fun _ hNone => by cases hNone) rfl
  case notifyConnect.connected fallbackPresence _ _ _ =>
    subst h
    cases fallbackPresence <;> exact readsAllowed_of_silent (fun _ hNone => by cases hNone) rfl
  all_goals subst h
  all_goals first
    | exact readsAllowed_of_silent hReader rfl
    | exact readsAllowed_of_silent (fun _ hNone => by cases hNone) rfl

end Answers

variable [DecidableEq Id]

/-- What makes a task's readings unauthorised is a peer leaving the allowlist. -/
theorem ReadsAllowed.of_changes {n n' : Node Id} {fresh : Nat} {call : Call Id} {task : Task Id}
    (hTask : ReadsAllowed n task) (h : call.Changes n fresh n')
    (hRevoked : ∀ remote, call = .disallow remote → ¬ task.ReadsFor remote) :
    ReadsAllowed n' task := by
  rcases h.access with hSame | ⟨remote, _, rfl⟩ | ⟨remote, rfl, rfl⟩ | ⟨_, _, rfl⟩
  · unfold ReadsAllowed
    rw [hSame]
    exact hTask
  · refine ⟨fun r hr => Finset.mem_insert_of_mem (hTask.1 r hr), ?_⟩
    intro c hMem endpointId hInvite
    obtain ⟨r, hr, hText⟩ := hTask.2 c hMem endpointId hInvite
    exact ⟨r, Finset.mem_insert_of_mem hr, hText⟩
  · have hOther := hRevoked remote rfl
    refine ⟨fun r hr => Finset.mem_erase.mpr ⟨?_, hTask.1 r hr⟩, ?_⟩
    · rintro rfl
      exact hOther (Or.inl hr)
    · intro c hMem endpointId hInvite
      obtain ⟨r, hr, rfl⟩ := hTask.2 c hMem endpointId hInvite
      refine ⟨r, Finset.mem_erase.mpr ⟨?_, hr⟩, rfl⟩
      rintro rfl
      exact hOther (Or.inr ⟨c, hMem, hInvite⟩)
  · exact hTask

/-- A peer leaves the allowlist only when nothing reads or reports for it, and
readings that ask no one begin only while their peer is allowed. -/
def RevokesIdle (c : NodeConfig Id) : NodeLabel Id → Prop
  | .turn t input =>
      (match nextCall c t with
        | some (.disallow remote) => ∀ other ∈ c.tasks, ¬ other.ReadsFor remote
        | _ => True) ∧
      match c.tasks[t]? with
        | some ⟨[], wait⟩ => wait.Admits c.shared input
        | _ => True
  | _ => True

instance (n : Node Id) (wait : Wait Id) (input : Input) : Decidable (wait.Admits n input) := by
  unfold Wait.Admits
  split <;> infer_instance

instance (c : NodeConfig Id) (l : NodeLabel Id) : Decidable (RevokesIdle c l) := by
  unfold RevokesIdle
  split
  · refine @instDecidableAnd _ _ ?_ ?_ <;> split <;> infer_instance
  · infer_instance

/-- One step keeps every reader at an allowed peer, unless that peer is revoked under it. -/
theorem readsAllowed_step {c d : NodeConfig Id} {l : NodeLabel Id} (hAll : c.All ReadsAllowed)
    (hIdle : RevokesIdle c l) (hStep : step c l = some d) : d.All ReadsAllowed := by
  have hRevoked {t : Nat} {input : Input} {task : Task Id} {call : Call Id} {rest : List (Call Id)}
      (hl : l = .turn t input) (hTask : c.tasks[t]? = some task) (hTodo : task.todo = call :: rest)
      (remote : Id) (hCall : call = .disallow remote) : ∀ other ∈ c.tasks, ¬ other.ReadsFor remote := by
    subst hl hCall
    have hNext := nextCall_eq_some.mpr ⟨task, rest, hTask, hTodo⟩
    simp only [RevokesIdle, hNext] at hIdle
    exact hIdle.1
  refine step_all hAll hStep (fun n _ hNew => hNew.readsAllowed n) ?_ ?_
  · intro t input task n' task' spawned hl hTask hReads hTurn
    rcases Task.turn_eq_some hTurn with ⟨_, _, rfl, rfl, _⟩ | ⟨hTodo, rfl, _, hNext⟩ |
      ⟨call, rest, hTodo, hExec⟩
    · exact readsAllowed_returned _ false
    · obtain ⟨todo, wait⟩ := task
      obtain rfl : todo = [] := hTodo
      subst hl
      simp only [RevokesIdle, hTask] at hIdle
      exact .of_resume hReads.1 hIdle.2 hNext
    · obtain ⟨todo, wait⟩ := task
      obtain rfl : todo = call :: rest := hTodo
      have hMoves := Call.exec_moves hExec
      refine (hReads.of_moves hMoves).of_changes (Call.exec_changes hExec) ?_
      rintro remote rfl hFor
      refine hRevoked hl hTask rfl remote rfl _ (List.mem_of_getElem? hTask) ?_
      cases hMoves with
      | onward => exact hFor.imp_right fun ⟨c, hMem, hInvite⟩ =>
          ⟨c, List.mem_cons_of_mem _ hMem, hInvite⟩
      | stopped _ _ hStop => cases hStop
  · intro t input task n' task' spawned u other hl hTask hTurn _ hOther hReads
    rcases Task.turn_changes hTurn with rfl | ⟨call, rest, hTodo, hChanges, _⟩
    · exact hReads
    · refine hReads.of_changes hChanges fun remote hCall => ?_
      exact hRevoked hl hTask hTodo remote hCall other (List.mem_of_getElem? hOther)

/-- The only calls that report a message of a peer. -/
theorem Call.Changes.inviteFrom {n n' : Node Id} {fresh : Nat} {call : Call Id}
    {event : NodeEvent} {endpointId : String} (h : call.Changes n fresh n')
    (hEvents : n'.events = n.events ++ [event]) (hInvite : event.inviteFrom = some endpointId) :
    call.inviteFrom = some endpointId := by
  have hNotKept (hSame : n'.events = n.events) : False := by
    rw [hSame] at hEvents
    simpa using congrArg List.length hEvents
  cases h with
  | emitted e =>
      obtain rfl : e = event := by simpa [Node.emit] using hEvents
      exact hInvite
  | answered remote response displayName =>
      obtain rfl : NodeEvent.pairedInviteResponse (toStr remote) displayName response = event := by
        simpa [Node.emit] using hEvents
      exact hInvite
  | presence key writer =>
      rcases n.setPresence_events key writer.online with hSame | ⟨lastSeenAt, hNew⟩
      · exact (hNotKept hSame).elim
      · obtain rfl : NodeEvent.pairedDevicePresence key writer.online lastSeenAt = event := by
          rw [hNew] at hEvents
          simpa using hEvents
        cases hInvite
  | _ => exact (hNotKept rfl).elim

/-- Every invite, and every answer to one, that reaches the user comes from a
peer that is allowed when the event is emitted. -/
theorem invites_come_from_allowed {restart : Restart Id} {file : List PairedDevice}
    {ls : List (NodeLabel Id)} {c d : NodeConfig Id} {l : NodeLabel Id} {event : NodeEvent}
    {endpointId : String}
    (hRun : exec step (started restart file) ls = some c)
    (hMeets : Meets step RevokesIdle (started restart file) ls) (hStep : step c l = some d)
    (hEvent : d.shared.events = c.shared.events ++ [event])
    (hInvite : event.inviteFrom = some endpointId) :
    ∃ remote ∈ c.shared.access.allowed, endpointId = toStr remote := by
  have hStart : (started restart file).All ReadsAllowed := fun _ _ hNew =>
    (started_new hNew).readsAllowed _
  have hAll := hMeets.invariant (fun _ _ _ hInv hIdle hNext => readsAllowed_step hInv hIdle hNext)
    hRun hStart
  cases l with
  | call command =>
      obtain rfl := Option.some.inj hStep
      simpa using congrArg List.length hEvent
  | restart other =>
      obtain rfl := Option.some.inj hStep
      change [] = c.shared.events ++ [event] at hEvent
      simp at hEvent
  | turn t input =>
      obtain ⟨task, n', task', spawned, hTask, hTurn, rfl⟩ :=
        (Execution.Pool.next_turn_eq_some _).mp hStep
      rcases Task.turn_changes hTurn with hSame | ⟨call, rest, hTodo, hChanges, _⟩
      · rw [hSame] at hEvent
        simpa using congrArg List.length hEvent
      · refine (hAll t task hTask).2 call ?_ endpointId (hChanges.inviteFrom hEvent hInvite)
        rw [hTodo]
        exact List.mem_cons_self

section Devices

def pairedRecord (id : HexId) : PairedDevice :=
  ⟨toStr id, "desktop", "desktop", "linux", 0, 0, none, .active⟩

/-- Bob is paired, connects, and his session waits for a message. -/
def pairedSession : List (NodeLabel HexId) :=
  [.call (.inbound (inboundFrom bob))] ++ goes 1 11

def bobsInvite : NodeLabel HexId := .turn 1 (.message (.invite ⟨"blob", 1, 2, "Bob"⟩))

theorem invites_come_from_allowed_paired : ∃ c,
    exec step (started (.onIdentity (desktop alice)) [pairedRecord bob])
      (pairedSession ++ [bobsInvite]) = some c ∧
      ∃ remote ∈ c.shared.access.allowed, toStr bob = toStr remote := by
  have hRuns : ∃ c,
      exec step (started (.onIdentity (desktop alice)) [pairedRecord bob])
        (pairedSession ++ [bobsInvite]) = some c ∧
        ∃ d, step c (.turn 1 (.go 0)) = some d ∧
          d.shared.events =
            c.shared.events ++ [.pairedInviteReceived (toStr bob) ⟨"blob", 1, 2, "Bob"⟩] := by
    decide +kernel
  obtain ⟨c, hRun, d, hStep, hEvent⟩ := hRuns
  exact ⟨c, hRun, invites_come_from_allowed hRun (by decide +kernel) hStep hEvent rfl⟩

/-- Alice forgets Bob, and his invite on the old connection still reaches her. -/
theorem invite_after_forget : ∃ c,
    exec step (started (.onIdentity (desktop alice)) [pairedRecord bob])
      (pairedSession ++ [.call (.forgetPaired (toStr bob))] ++ goes 2 9) = some c ∧
      c.tasks[2]? = some (Task.returned true) ∧ c.shared.access.allowed = ∅ ∧
      ∃ d, exec step c [bobsInvite, .turn 1 (.go 0)] = some d ∧
        d.shared.events =
          c.shared.events ++ [.pairedInviteReceived (toStr bob) ⟨"blob", 1, 2, "Bob"⟩] ∧
        d.shared.access.allowed = ∅ := by
  decide +kernel

end Devices
end AltSendme
