import AltSendme.Native.SessionTable

/-! Which device a key of the session table leads to. Ids have more than one
text form, and keys are lowercased; as long as the lowercase form of a text names
the same id, a session is one with the device that its key names. -/
namespace AltSendme

variable {Id : Type} [EndpointKeys Id]
open EndpointKeys (toStr fromStr fromStr_toStr toStr_toLowercase)
open Execution (exec)

/-- The text a task goes by names the device that the task means. -/
def Wait.Addressed : Wait Id → Prop
  | .recognizing endpointId _ conn | .outboundAccept endpointId _ conn
  | .outboundRead endpointId _ conn => fromStr endpointId = some conn.remote
  | .notifyWait remote endpointId _ _ => fromStr endpointId = some remote
  | _ => True

/-- Every key of the table names the other end of its session. -/
def SessionsAddressed (n : Node Id) : Prop :=
  ∀ key conn, n.sessions key = some conn → fromStr key = some conn.remote

/-- A command that waits for a dial waits for the device it names. -/
theorem Command.addressed (command : Command Id) : command.start.wait.Addressed := by
  have hNotify (endpointId : String) (message : ControlMessage) (fallbackPresence : Bool) :
      (notify endpointId message fallbackPresence : Task Id).wait.Addressed := by
    unfold notify
    split
    · trivial
    · next hId => exact hId
  cases command with
  | joinPairing ticket =>
      unfold start
      dsimp only
      split
      · trivial
      · split <;> trivial
  | invitePairedDevice endpointId invite => exact hNotify endpointId _ true
  | respondPairedInvite endpointId response => exact hNotify endpointId _ false
  | _ => trivial

/-- Every new task waits for the device its connection leads to. -/
theorem NewTask.addressed {task : Task Id} (h : NewTask task) : task.wait.Addressed := by
  cases h with
  | command command => exact command.addressed
  | _ => trivial

/-- Working off a call keeps a task waiting for the device it was given. -/
theorem Wait.Addressed.of_moves {n : Node Id} {fresh : Nat} {wait : Wait Id} {call : Call Id}
    {rest : List (Call Id)} {task' : Task Id} (hWait : wait.Addressed)
    (h : call.Moves n fresh wait rest task') : task'.wait.Addressed := by
  rcases h.nextWait with hSame | ⟨ok, rfl⟩ | ⟨_, _, _, _, hNext⟩ | ⟨_, _, _, hNext⟩ |
    ⟨_, _, _, hNext | ⟨_, hNext⟩⟩ | ⟨_, _, _, hNext⟩
  · rw [hSame]
    exact hWait
  · trivial
  all_goals
    rw [hNext]
    trivial

/-- Waking up keeps a task at the device it was given. -/
theorem Wait.Addressed.of_resume {n : Node Id} {wait : Wait Id} {input : Input} {task' : Task Id}
    (hWait : wait.Addressed) (h : wait.resume n input = some task') : task'.wait.Addressed := by
  cases Wait.resume_answers h with
  | connected endpointId relayUrl remote keying id sessionId =>
      obtain ⟨remote', hRemote, hSame⟩ := Option.map_eq_some_iff.mp h
      have hWaits := congrArg Task.wait hSame
      dsimp only at hWaits
      injection hWaits with _ _ hConn
      injection hConn with _ hRemotes
      subst hRemotes
      exact hRemote
  | pairingRead conn s m =>
      obtain ⟨_, s', hNext⟩ := onPairingMessage_isAnswer conn m s
      rw [hNext]
      trivial
  | pairingLost conn s =>
      unfold pairingLoopEnded
      dsimp only
      split <;> trivial
  | pairedRead conn m =>
      rcases (onPairedMessage_isAnswer conn m).2 with hNext | hNext
      all_goals
        rw [hNext]
        trivial
  | hostRead conn relayUrl m =>
      rcases (onHostInfo_isAnswer conn m relayUrl).2 with hNext | hNext
      all_goals
        rw [hNext]
        trivial
  | outboundRead endpointId relayUrl conn m =>
      rw [(onOutboundMessage_isAnswer conn m endpointId relayUrl).2]
      exact hWait
  | recognized | outboundStream | outboundUnread => exact hWait
  | _ => trivial

variable [DecidableEq Id]

/-- One turn keeps a task at the device it was given. -/
theorem Wait.Addressed.of_turn {n n' : Node Id} {self fresh : Nat} {task task' : Task Id}
    {input : Input} {spawned : List (Task Id)} (hWait : task.wait.Addressed)
    (h : task.turn n self fresh input = some (n', task', spawned)) : task'.wait.Addressed := by
  rcases Task.turn_eq_some h with ⟨_, _, _, rfl, _⟩ | ⟨_, _, _, hNext⟩ | ⟨_, _, _, hExec⟩
  · trivial
  · exact hWait.of_resume hNext
  · exact hWait.of_moves (Call.exec_moves hExec)

/-- One turn keeps a task's session under the name of its own peer. -/
theorem Task.KeepsSession.of_turn {n n' : Node Id} {self fresh : Nat} {task task' : Task Id}
    {input : Input} {spawned : List (Task Id)} (hTask : task.KeepsSession)
    (h : task.turn n self fresh input = some (n', task', spawned)) : task'.KeepsSession := by
  by_cases hCancelled : input = .cancelled
  · subst hCancelled
    obtain ⟨_, _, rfl, _⟩ := Task.turn_cancelled h
    exact Task.keepsSession_returned false
  · exact (hTask.serves_of_turn hCancelled h).keeps

omit [DecidableEq Id] in
/-- What a task serves in the table, it serves under a name of the other end. -/
theorem Wait.Addressed.holds (hCase : ∀ text (id : Id), fromStr text = some id →
      fromStr text.toLowercase = some id) {wait : Wait Id} (hWait : wait.Addressed) {key : String}
    {conn : Connection Id} (h : wait.holds = some (key, conn)) :
    fromStr key = some conn.remote := by
  cases wait with
  | pairedExport other | pairedAccept other | pairedRead other =>
      cases h
      rw [toStr_toLowercase]
      exact fromStr_toStr _
  | outboundAccept endpointId relayUrl other | outboundRead endpointId relayUrl other =>
      cases h
      exact hCase endpointId _ hWait
  | _ => cases h

/-- The names of a node: those its tasks go by, and the keys of its table. -/
structure NamesKept (c : NodeConfig Id) : Prop where
  tasks : c.All fun _ task => task.KeepsSession ∧ task.wait.Addressed
  sessions : SessionsAddressed c.shared

/-- A start keeps all names. -/
theorem namesKept_started (restart : Restart Id) (file : List PairedDevice) :
    NamesKept (started restart file) where
  tasks := fun _ _ hNew => ⟨(started_new hNew).keepsSession, (started_new hNew).addressed⟩
  sessions := fun _ _ hEntry => by cases hEntry

/-- One step of a node keeps all names, provided iroh's parser does not look at the case. -/
theorem NamesKept.step (hCase : ∀ text (id : Id), fromStr text = some id →
      fromStr text.toLowercase = some id) {c d : NodeConfig Id} {l : NodeLabel Id}
    (h : NamesKept c) (hStep : AltSendme.step c l = some d) : NamesKept d := by
  refine ⟨?_, ?_⟩
  · refine step_all h.tasks hStep (fun _ _ hNew => ⟨hNew.keepsSession, hNew.addressed⟩) ?_ ?_
    · intro t input task n' task' spawned _ _ hTask hTurn
      exact ⟨hTask.1.of_turn hTurn, hTask.2.of_turn hTurn⟩
    · intro _ _ _ _ _ _ _ _ _ _ _ _ _ hOther
      exact hOther
  · cases l with
    | call command =>
        obtain rfl := Option.some.inj hStep
        exact h.sessions
    | restart other =>
        obtain rfl := Option.some.inj hStep
        exact fun _ _ hEntry => by cases hEntry
    | turn t input =>
        obtain ⟨task, n', task', spawned, hTask, hTurn, rfl⟩ :=
          (Execution.Pool.next_turn_eq_some _).mp hStep
        change task.turn c.shared t c.tasks.length input = _ at hTurn
        obtain ⟨hKeeps, hWait⟩ := h.tasks t task hTask
        intro key conn hEntry
        by_cases hCancelled : input = .cancelled
        · subst hCancelled
          obtain ⟨_, rfl, _⟩ := Task.turn_cancelled hTurn
          exact h.sessions key conn hEntry
        · rcases (hKeeps.serves_of_turn hCancelled hTurn).entry key conn hEntry with
            hOwn | ⟨hOld, _⟩
          · have hHolds : task'.wait.holds = some (key, conn) := by
              unfold Task.registered at hOwn
              split at hOwn
              · cases hOwn
              · exact hOwn
            exact (hWait.of_turn hTurn).holds hCase hHolds
          · exact h.sessions key conn hOld

end AltSendme
