import AltSendme.Native.SessionTable

/-! The presence map against the session table. Every change of the table is
announced by the task that made it, but other tasks write the map too and do
not look at the table, so what the map says in the end is its last writer's. -/
namespace AltSendme

variable {Id : Type} [EndpointKeys Id]
open EndpointKeys (toStr fromStr)
open Execution (exec lastVerdict lastVerdict_concat)
open Execution.Pool (getElem?_call_old getElem?_after_call getElem?_after_turn getElem?_turn_self
  getElem?_turn_other)

/-- `list_paired` shows the key online exactly when it has a session. -/
def Node.Truthful (n : Node Id) (key : String) : Prop :=
  n.presence key = some true ↔ (n.sessions key).isSome = true

/-- Whether the writer writes what the table says. A failed attempt, a `Recognition`,
the fallback of an invite and the two ways to forget write what they write without a
look at the table; `set_session` and `remove_session` write of a change of their own,
which another task may have undone. -/
def PresenceWriter.agrees (hasSession : Bool) : PresenceWriter → Bool
  | .sessionSet | .recognition | .inviteFallback => hasSession
  | .sessionRemoved | .attemptFailed | .forgotten | .unpaired => !hasSession

/-- What a call decides on `key`: whether the table says the same of it as the call
writes into the map. A table that is cleared says offline to whatever the map holds. -/
def Call.verdict (key : String) (n : Node Id) : Call Id → Option Bool
  | .setPresence endpointId writer =>
      if endpointId.toLowercase = key then some (writer.agrees (n.sessions key).isSome) else none
  | .clearSessions => some (n.presence key != some true)
  | _ => none

/-- The verdict of a step. A restart begins with an empty map and an empty table. -/
def presenceVerdict (key : String) (c : NodeConfig Id) : NodeLabel Id → Option Bool
  | .call _ => none
  | .restart _ => some true
  | .turn t _ => (nextCall c t).bind (Call.verdict key c.shared)

/-- Every task awaits the outside. -/
def Quiescent (c : NodeConfig Id) : Prop := ∀ task ∈ c.tasks, task.todo = []

instance (c : NodeConfig Id) : Decidable (Quiescent c) := by
  unfold Quiescent
  infer_instance

/-- The keys of the table are lowercased, and an inserted session is announced
by the next call of its task. -/
def Announces : List (Call Id) → Prop
  | [] => True
  | .insertSession key _ :: rest =>
      key.toLowercase = key ∧ rest.head? = some (.setPresence key .sessionSet) ∧ Announces rest
  | .removeSession key :: rest => key.toLowercase = key ∧ Announces rest
  | _ :: rest => Announces rest

namespace Task

/-- The task's next call writes the presence of `key`. -/
def Announcing (key : String) (task : Task Id) : Prop :=
  ∃ endpointId writer rest, task.todo = .setPresence endpointId writer :: rest ∧
    endpointId.toLowercase = key

end Task

section Calls

omit [EndpointKeys Id] in
theorem Announces.rest {call : Call Id} {rest : List (Call Id)} (h : Announces (call :: rest)) :
    Announces rest := by
  cases call with
  | insertSession key conn => exact h.2.2
  | removeSession key => exact h.2
  | _ => exact h

omit [EndpointKeys Id] in
/-- Lists that announce their changes do so one behind the other. -/
theorem Announces.append {first second : List (Call Id)} (hFirst : Announces first)
    (hSecond : Announces second) : Announces (first ++ second) := by
  induction first with
  | nil => exact hSecond
  | cons call rest ih =>
      have hRest := ih hFirst.rest
      cases call with
      | insertSession key conn =>
          obtain ⟨hKey, hHead, _⟩ := hFirst
          obtain ⟨others, rfl⟩ := List.head?_eq_some_iff.mp hHead
          exact ⟨hKey, rfl, hRest⟩
      | removeSession key => exact ⟨hFirst.1, hRest⟩
      | _ => exact hRest

omit [EndpointKeys Id] in
/-- A session that is set is announced. -/
theorem announces_setSession (endpointId : String) (conn : Connection Id) :
    Announces (setSession endpointId.toLowercase conn) := by
  simp [setSession, Announces, String.toLowercase_toLowercase]

omit [EndpointKeys Id] in
/-- A session that is forgotten is announced. -/
theorem announces_managerForget (endpointId : String) :
    Announces (managerForget endpointId : List (Call Id)) := by
  simp [managerForget, Announces, String.toLowercase_toLowercase]

/-- An answer to Recognition announces what it changes. -/
theorem announces_onRecognition (conn : Connection Id) (signature : String) :
    Announces (onRecognition conn signature) := by
  unfold onRecognition
  split <;> trivial

/-- An answer to Forget announces what it changes. -/
theorem announces_onForget (conn : Connection Id) (signature : String) (paired : Bool) :
    Announces (onForget conn signature paired) := by
  unfold onForget
  split <;> trivial

/-- A store result leads to announced calls only. -/
theorem StoreCont.announces_resume {todo : List (Call Id)} (hTodo : Announces todo)
    (wait : Wait Id) (cont : StoreCont Id) (reply : Except String (Option PairedDevice)) :
    Announces (cont.resume todo wait reply).todo := by
  unfold resume
  split
  · exact hTodo
  · exact hTodo
  · trivial
  · next remote paired device =>
      refine Announces.append ?_ hTodo
      unfold onUnpaired
      cases paired with
      | true =>
          exact Announces.append (Announces.append trivial (announces_managerForget _)) trivial
      | false => trivial
  · exact hTodo

/-- A call leaves announced calls behind. -/
theorem Call.Moves.announces {n : Node Id} {fresh : Nat} {wait : Wait Id}
    {rest : List (Call Id)} {call : Call Id} {task' : Task Id}
    (h : call.Moves n fresh wait rest task') (hRest : Announces rest) :
    Announces task'.todo := by
  cases h with
  | gatePaired conn isOpen => exact Announces.append (announces_setSession _ conn) hRest
  | storeKept op cont reply => exact cont.announces_resume hRest wait reply
  | storeWritten op base cont reply => exact cont.announces_resume hRest wait reply
  | stopped => trivial
  | completed => trivial
  | _ => exact hRest

/-- An answer leads to announced calls. -/
theorem Wait.announces_resume {n : Node Id} {wait : Wait Id} {input : Input} {task' : Task Id}
    (h : wait.resume n input = some task') : Announces task'.todo := by
  have hRemoved (endpointId : String) :
      Announces [(.removeSession endpointId.toLowercase : Call Id)] :=
    ⟨endpointId.toLowercase_toLowercase, trivial⟩
  cases wait <;> cases input <;>
    simp only [Wait.resume, reduceCtorEq, Option.some.injEq, Option.map_eq_some_iff] at h
  case pairing.message conn s m =>
    subst h
    cases m with
    | pairingInfo info =>
        unfold onPairingMessage
        dsimp only
        split <;> trivial
    | recognition signature => exact (announces_onRecognition conn signature).append trivial
    | forget signature => exact (announces_onForget conn signature false).append trivial
    | _ => trivial
  case pairing.closed conn s =>
    subst h
    unfold pairingLoopEnded
    dsimp only
    split <;> trivial
  case pairedRead.message conn m =>
    subst h
    cases m with
    | recognition signature => exact announces_onRecognition conn signature
    | forget signature =>
        unfold onPairedMessage
        dsimp only
        split
        · exact (announces_onForget conn signature true).append (hRemoved _)
        · trivial
    | _ => trivial
  case outboundRead.message endpointId relayUrl conn m =>
    subst h
    cases m with
    | recognition signature => exact announces_onRecognition conn signature
    | _ => trivial
  case joinRead.message conn relayUrl m =>
    subst h
    cases m with
    | pairingInfo info =>
        unfold onHostInfo
        dsimp only
        split <;> trivial
    | _ => trivial
  case recognizing.go endpointId relayUrl conn _ =>
    subst h
    exact announces_setSession endpointId conn
  case pairedExport.fail | pairedAccept.closed | outboundAccept.closed | outboundRead.closed =>
    subst h
    exact hRemoved _
  case connecting.connected | notifyWait.go =>
    obtain ⟨_, _, rfl⟩ := h
    trivial
  case notifyConnect.connected fallbackPresence _ _ _ =>
    subst h
    cases fallbackPresence <;> trivial
  case supervising.go =>
    split at h <;> cases h <;> trivial
  all_goals
    subst h
    trivial

omit [EndpointKeys Id] in
/-- A command announces what it changes. -/
theorem Command.Starts.announces {command : Command Id} {task : Task Id}
    (h : command.Starts task) : Announces task.todo := by
  cases h with
  | forgetPaired endpointId | forgetAllowed endpointId =>
      exact Announces.append (announces_managerForget endpointId) trivial
  | _ => trivial

/-- A new task announces what it changes. -/
theorem NewTask.announces {task : Task Id} (h : NewTask task) : Announces task.todo := by
  cases h with
  | command command => exact command.starts.announces
  | _ => trivial

end Calls

section Keys

omit [EndpointKeys Id] in
/-- Presence is written under the lowercase id. -/
theorem Node.setPresence_presence (n : Node Id) (endpointId : String) (online : Bool) :
    (n.setPresence endpointId online).presence =
      Function.update n.presence endpointId.toLowercase (some online) := by
  unfold setPresence
  dsimp only
  split
  · next hSame => rw [← hSame, Function.update_eq_self]
  · rfl

variable [DecidableEq Id]

/-- Only one call writes the presence map. -/
theorem Call.Changes.presence_eq {n n' : Node Id} {fresh : Nat} {call : Call Id}
    (h : call.Changes n fresh n') :
    n'.presence = n.presence ∨ ∃ endpointId writer, call = .setPresence endpointId writer ∧
      n'.presence = Function.update n.presence endpointId.toLowercase (some writer.online) := by
  cases h with
  | presence endpointId writer =>
      exact Or.inr ⟨endpointId, writer, rfl, n.setPresence_presence endpointId writer.online⟩
  | _ => exact Or.inl rfl

omit [EndpointKeys Id] [DecidableEq Id] in
/-- The map has lowercased keys only. -/
def LowercaseKeys (c : NodeConfig Id) : Prop :=
  ∀ key, c.shared.presence key ≠ none → key.toLowercase = key

/-- One step keeps the keys of both tables in lower case. -/
theorem lowercaseKeys_step {c d : NodeConfig Id} {l : NodeLabel Id} (hKeys : LowercaseKeys c)
    (hStep : step c l = some d) : LowercaseKeys d := by
  intro key hKey
  cases l with
  | call command =>
      obtain rfl := Option.some.inj hStep
      exact hKeys key hKey
  | restart restart =>
      obtain rfl := Option.some.inj hStep
      exact (hKey rfl).elim
  | turn t input =>
      obtain ⟨task, n', task', spawned, hTask, hTurn, rfl⟩ :=
        (Execution.Pool.next_turn_eq_some _).mp hStep
      have hTurn' : task.turn c.shared t c.tasks.length input = some (n', task', spawned) := hTurn
      change n'.presence key ≠ none at hKey
      rcases Task.turn_changes hTurn' with rfl | ⟨call, rest, _, hChanges, _⟩
      · exact hKeys key hKey
      · rcases hChanges.presence_eq with hSame | ⟨endpointId, writer, _, hWritten⟩
        · exact hKeys key (hSame ▸ hKey)
        · by_cases hOwn : key = endpointId.toLowercase
          · rw [hOwn, String.toLowercase_toLowercase]
          · rw [hWritten, Function.update_of_ne hOwn] at hKey
            exact hKeys key hKey

/-- The second place `list_paired` looks in has nothing that the first has not. -/
theorem isOnline_iff {restart : Restart Id} {file : List PairedDevice}
    {ls : List (NodeLabel Id)} {c : NodeConfig Id}
    (hRun : exec step (started restart file) ls = some c) (endpointId : String) :
    c.shared.isOnline endpointId = true ↔
      c.shared.presence endpointId.toLowercase = some true := by
  have hKeys : LowercaseKeys c :=
    Execution.exec_invariant (fun _ _ _ hKeys hStep => lowercaseKeys_step hKeys hStep) hRun
      fun _ hNone => (hNone rfl).elim
  unfold Node.isOnline
  cases hLower : c.shared.presence endpointId.toLowercase with
  | some online => simp
  | none =>
      cases hWritten : c.shared.presence endpointId with
      | none => simp
      | some online =>
          have hKey := hKeys endpointId (by rw [hWritten]; exact Option.some_ne_none online)
          rw [hKey, hWritten] at hLower
          cases hLower

end Keys

section Turns
variable [DecidableEq Id]

/-- After a call the next one announces the change, or the call decided what
the map is worth, or that is as it was. -/
theorem Call.exec_truthful {n n' : Node Id} {fresh : Nat} {wait : Wait Id}
    {rest : List (Call Id)} {call : Call Id} {input : Input} {task' : Task Id}
    {spawned : List (Task Id)} {key : String} (hAnnounces : Announces (call :: rest))
    (h : call.exec n fresh wait rest input = some (n', task', spawned)) :
    task'.Announcing key ∨
      (∃ verdict, call.verdict key n = some verdict ∧ (n'.Truthful key ↔ verdict = true)) ∨
      (call.verdict key n = none ∧ (n'.Truthful key ↔ n.Truthful key)) := by
  have hSessions := Call.exec_sessions h
  have hSame (hOther : ∀ endpointId writer, call ≠ .setPresence endpointId writer) :
      n'.presence = n.presence := by
    rcases (Call.exec_changes h).presence_eq with hKept | ⟨endpointId, writer, hCall, _⟩
    · exact hKept
    · exact (hOther endpointId writer hCall).elim
  cases call with
  | setPresence endpointId writer =>
      right
      cases input <;> simp only [Call.exec, reduceCtorEq, Option.some.injEq, Prod.mk.injEq] at h
      obtain ⟨rfl, _⟩ := h
      rw [Node.Truthful, n.setPresence_presence, n.setPresence_sessions]
      by_cases hKey : endpointId.toLowercase = key
      · refine Or.inl ⟨_, if_pos hKey, ?_⟩
        rw [hKey, Function.update_self]
        cases writer <;> simp [PresenceWriter.online, PresenceWriter.agrees]
      · refine Or.inr ⟨if_neg hKey, ?_⟩
        rw [Function.update_of_ne (Ne.symm hKey)]
        rfl
  | clearSessions =>
      refine Or.inr (Or.inl ⟨_, rfl, ?_⟩)
      rw [Node.Truthful, hSame (by simp), hSessions]
      simp [Call.tableAfter]
  | insertSession other conn =>
      by_cases hKey : other = key
      · subst hKey
        obtain ⟨hLower, hHead, _⟩ := hAnnounces
        obtain ⟨others, rfl⟩ := List.head?_eq_some_iff.mp hHead
        cases input <;> simp only [Call.exec, reduceCtorEq, Option.some.injEq, Prod.mk.injEq] at h
        obtain ⟨_, rfl, _⟩ := h
        exact Or.inl ⟨other, .sessionSet, others, rfl, hLower⟩
      · refine Or.inr (Or.inr ⟨rfl, ?_⟩)
        rw [Node.Truthful, hSame (by simp), hSessions, Call.tableAfter,
          Function.update_of_ne (Ne.symm hKey)]
        rfl
  | removeSession other =>
      by_cases hKey : other = key
      · subst hKey
        cases hPresent : (n.sessions other).isSome with
        | true =>
            cases input <;>
              simp only [Call.exec, hPresent, reduceCtorEq, Option.some.injEq, Prod.mk.injEq] at h
            obtain ⟨_, rfl, _⟩ := h
            exact Or.inl ⟨other, .sessionRemoved, rest, rfl, hAnnounces.1⟩
        | false =>
            refine Or.inr (Or.inr ⟨rfl, ?_⟩)
            rw [Node.Truthful, Node.Truthful, hSame (by simp), hSessions, hPresent, Call.tableAfter,
              Function.update_self]
            rfl
      · refine Or.inr (Or.inr ⟨rfl, ?_⟩)
        rw [Node.Truthful, hSame (by simp), hSessions, Call.tableAfter,
          Function.update_of_ne (Ne.symm hKey)]
        rfl
  | _ =>
      refine Or.inr (Or.inr ⟨rfl, ?_⟩)
      rw [Node.Truthful, hSame (by simp), hSessions]
      rfl

/-- What the map says of `key` is worth its last verdict, once nobody is about
to write it. -/
structure PresenceFollows (key : String) (verdict : Bool) (c : NodeConfig Id) : Prop where
  announces : ∀ (t : Nat) (task : Task Id), c.tasks[t]? = some task → Announces task.todo
  decided : (∃ (t : Nat) (task : Task Id), c.tasks[t]? = some task ∧ task.Announcing key) ∨
    (c.shared.Truthful key ↔ verdict = true)

/-- After a start presence follows the empty table. -/
theorem presenceFollows_started (key : String) (restart : Restart Id) (file : List PairedDevice) :
    PresenceFollows key true (started restart file) where
  announces := fun _ _ hNew => (started_new hNew).announces
  decided := Or.inr (by simp [started, Restart.node, Node.Truthful])

omit [EndpointKeys Id] [DecidableEq Id] in
/-- A call that announces a change of `key` has a verdict on it. -/
theorem Task.Announcing.verdict {task : Task Id} {call : Call Id} {rest : List (Call Id)}
    {key : String} (h : task.Announcing key) (hTodo : task.todo = call :: rest) (n : Node Id) :
    call.verdict key n ≠ none := by
  obtain ⟨endpointId, writer, others, hHead, hKey⟩ := h
  obtain ⟨rfl, -⟩ := List.cons.inj (hTodo.symm.trans hHead)
  rw [Call.verdict, if_pos hKey]
  exact Option.some_ne_none _

/-- An abort takes effect only where nothing decides on the map. -/
theorem Task.turn_cancelled_verdict {n n' : Node Id} {self fresh : Nat} {task task' : Task Id}
    {spawned : List (Task Id)}
    (h : task.turn n self fresh .cancelled = some (n', task', spawned)) (key : String) :
    task.todo.head?.bind (Call.verdict key n) = none := by
  rw [Task.turn, if_pos rfl] at h
  split at h
  · next hAborted =>
      have hAwait : task.todo.head?.all Call.isAwait = true := (Bool.and_eq_true _ _ ▸ hAborted).2
      cases hHead : task.todo.head? with
      | none => rfl
      | some call =>
          rw [hHead] at hAwait
          cases call <;> first | rfl | cases hAwait
  · cases h

/-- One turn keeps presence at the last writing's verdict. -/
theorem presenceFollows_turn {c : NodeConfig Id} {t : Nat} {input : Input} {task task' : Task Id}
    {n' : Node Id} {spawned : List (Task Id)} {key : String} {verdict : Bool}
    (hInv : PresenceFollows key verdict c) (hTask : c.tasks[t]? = some task)
    (hTurn : task.turn c.shared t c.tasks.length input = some (n', task', spawned)) :
    PresenceFollows key ((presenceVerdict key c (.turn t input)).getD verdict)
      ⟨n', c.tasks.set t task' ++ spawned⟩ := by
  have hLength := (List.getElem?_eq_some_iff.mp hTask).1
  have hOwn := hInv.announces t task hTask
  have hVerdict : presenceVerdict key c (.turn t input) =
      task.todo.head?.bind (Call.verdict key c.shared) := by
    simp [presenceVerdict, nextCall, hTask]
  have hAll (hNext : Announces task'.todo) (u : Nat) (found : Task Id)
      (hFound : (c.tasks.set t task' ++ spawned)[u]? = some found) : Announces found.todo := by
    rcases getElem?_after_turn hFound with ⟨_, _, rfl⟩ | ⟨_, hOld⟩ | ⟨_, hNew⟩
    · exact hNext
    · exact hInv.announces u found hOld
    · exact (Task.spawned_new hTurn hNew).announces
  -- a step without a verdict keeps an announcement that is still to be made
  have hKept (hNone : task.todo.head?.bind (Call.verdict key c.shared) = none)
      (hSame : n'.Truthful key ↔ c.shared.Truthful key) :
      (∃ (u : Nat) (other : Task Id), (c.tasks.set t task' ++ spawned)[u]? = some other ∧
        other.Announcing key) ∨ (n'.Truthful key ↔ verdict = true) := by
    refine hInv.decided.imp ?_ hSame.trans
    rintro ⟨u, other, hOther, hAnnouncing⟩
    refine ⟨u, other, getElem?_turn_other ?_ hOther, hAnnouncing⟩
    rintro rfl
    obtain rfl := Option.some.inj (hTask.symm.trans hOther)
    obtain ⟨endpointId, online, rest, hTodo, _⟩ := id hAnnouncing
    rw [hTodo] at hNone
    exact hAnnouncing.verdict hTodo c.shared hNone
  rcases Task.turn_eq_some hTurn with ⟨rfl, _, rfl, rfl, rfl⟩ | ⟨hTodo, rfl, rfl, hNext⟩ |
    ⟨call, rest, hTodo, hExec⟩
  · have hNone := Task.turn_cancelled_verdict hTurn key
    rw [hVerdict, hNone]
    exact ⟨hAll trivial, hKept hNone Iff.rfl⟩
  · have hNone : task.todo.head?.bind (Call.verdict key c.shared) = none := by rw [hTodo]; rfl
    rw [hVerdict, hNone]
    exact ⟨hAll (Wait.announces_resume hNext), hKept hNone Iff.rfl⟩
  · rw [hTodo] at hOwn
    refine ⟨hAll ((Call.exec_moves hExec).announces hOwn.rest), ?_⟩
    have hCall : task.todo.head?.bind (Call.verdict key c.shared) = call.verdict key c.shared := by
      rw [hTodo]
      rfl
    rw [hVerdict, hCall]
    rcases Call.exec_truthful hOwn hExec with hAnnouncing | ⟨decided, hSome, hTruthful⟩ |
      ⟨hNone, hSame⟩
    · exact Or.inl ⟨t, task', getElem?_turn_self hLength, hAnnouncing⟩
    · rw [hSome]
      exact Or.inr hTruthful
    · rw [hNone]
      exact hKept (hCall.trans hNone) hSame

/-- One step keeps presence at the last writing's verdict. -/
theorem presenceFollows_step {c d : NodeConfig Id} {l : NodeLabel Id} {key : String}
    {verdict : Bool} (hInv : PresenceFollows key verdict c) (hStep : step c l = some d) :
    PresenceFollows key ((presenceVerdict key c l).getD verdict) d := by
  cases l with
  | call command =>
      obtain rfl := Option.some.inj hStep
      refine ⟨?_, hInv.decided.imp_left ?_⟩
      · intro t task hTask
        rcases getElem?_after_call hTask with hOld | ⟨_, rfl⟩
        · exact hInv.announces t task hOld
        · exact (NewTask.command command).announces
      · rintro ⟨t, task, hTask, hAnnouncing⟩
        exact ⟨t, task, getElem?_call_old hTask, hAnnouncing⟩
  | restart restart =>
      obtain rfl := Option.some.inj hStep
      exact presenceFollows_started key restart c.shared.file
  | turn t input =>
      obtain ⟨task, n', task', spawned, hTask, hTurn, rfl⟩ :=
        (Execution.Pool.next_turn_eq_some _).mp hStep
      exact presenceFollows_turn hInv hTask hTurn

/-- Where every task awaits the outside, a device is shown online exactly when
it has a session, if and only if the last call that decided on its presence
wrote what the table said: a session set, a `Recognition` or the fallback of an
invite found one there; a session removed, a failed attempt, a `Forget` or
`forget_paired` found none. -/
theorem online_iff_session_iff_last_write {restart : Restart Id} {file : List PairedDevice}
    {ls : List (NodeLabel Id)} {c : NodeConfig Id}
    (hRun : exec step (started restart file) ls = some c) (hQuiescent : Quiescent c)
    (endpointId : String) :
    (c.shared.isOnline endpointId = true ↔
        (c.shared.sessions endpointId.toLowercase).isSome = true) ↔
      lastVerdict step (presenceVerdict endpointId.toLowercase) true (started restart file) ls =
        true := by
  have hFollows : PresenceFollows endpointId.toLowercase
      (lastVerdict step (presenceVerdict endpointId.toLowercase) true (started restart file) ls)
      c := by
    refine @Execution.exec_history _ _ step (fun ls d => PresenceFollows endpointId.toLowercase
      (lastVerdict step (presenceVerdict endpointId.toLowercase) true (started restart file) ls) d)
      _ (presenceFollows_started _ restart file) ?_ ls c hRun
    intro ls m l d hPrior hInv hStep
    rw [lastVerdict_concat hPrior hStep]
    exact presenceFollows_step hInv hStep
  rw [isOnline_iff hRun]
  rcases hFollows.decided with ⟨t, task, hTask, endpointId', writer, rest, hTodo, _⟩ | hDecided
  · rw [hQuiescent task (List.mem_of_getElem? hTask)] at hTodo
    cases hTodo
  · exact hDecided

end Turns

section Devices

/-- Bob dials in, and is still there when the call to him fails. -/
def unreachable : List (NodeLabel HexId) :=
  dialing ++ [.call (.inbound (inboundFrom bob))] ++ goes 2 10 ++ [.turn 1 .fail] ++ goes 1 1

theorem online_iff_session_iff_last_write_oneAfterAnother : ∃ c,
    exec step (started (.onIdentity (desktop alice)) [pairedRecord bob]) oneAfterAnother = some c ∧
      (c.shared.isOnline (toStr bob) = true ↔
        (c.shared.sessions (toStr bob)).isSome = true) := by
  have hRuns : ∃ c,
      exec step (started (.onIdentity (desktop alice)) [pairedRecord bob]) oneAfterAnother =
        some c ∧ Quiescent c := by
    decide +kernel
  obtain ⟨c, hRun, hQuiescent⟩ := hRuns
  have hLast : lastVerdict step (presenceVerdict (toStr bob).toLowercase) true
      (started (.onIdentity (desktop alice)) [pairedRecord bob]) oneAfterAnother = true := by
    decide +kernel
  exact ⟨c, hRun, (online_iff_session_iff_last_write hRun hQuiescent (toStr bob)).mpr hLast⟩

/-- The failed call shows Bob offline, whose session is in the table. -/
theorem offline_with_session : ∃ c,
    exec step (started (.onIdentity (desktop alice)) [pairedRecord bob]) unreachable = some c ∧
      Quiescent c ∧ c.shared.isOnline (toStr bob) = false ∧
      (c.shared.sessions (toStr bob)).isSome = true := by
  decide +kernel

end Devices

end AltSendme
