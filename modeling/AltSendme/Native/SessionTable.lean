import AltSendme.Native.Abort
import AltSendme.Native.ControlAccess

/-! The table of sessions against the connections registered in it. An inbound
session and a connect loop of one peer write under the same key: the later one
overwrites the entry, and whichever ends first removes it. -/
namespace AltSendme

variable {Id : Type} [EndpointKeys Id]
open EndpointKeys (toStr fromStr)
open Execution (exec Meets)
open Execution.Pool (getElem?_call_old getElem?_after_call getElem?_after_turn getElem?_turn_self
  getElem?_turn_other)

/-- The key and the connection a task serves between registering and
unregistering it. -/
def Wait.holds : Wait Id → Option (String × Connection Id)
  | .pairedExport conn | .pairedAccept conn | .pairedRead conn =>
      some ((toStr conn.remote).toLowercase, conn)
  | .outboundAccept endpointId _ conn | .outboundRead endpointId _ conn =>
      some (endpointId.toLowercase, conn)
  | _ => none

namespace Call

def inserted : Call Id → Option (String × Connection Id)
  | .insertSession key conn => some (key, conn)
  | _ => none

/-- Whether the call removes the entry of `key`. -/
def drops (key : String) : Call Id → Bool
  | .removeSession other => other == key
  | .clearSessions => true
  | _ => false

/-- What the call makes of the table. -/
def tableAfter (sessions : String → Option (Connection Id)) :
    Call Id → String → Option (Connection Id)
  | .insertSession key conn => Function.update sessions key (some conn)
  | .removeSession key => Function.update sessions key none
  | .clearSessions => fun _ => none
  | _ => sessions

/-- Calls after which the calls behind them are still to be made. -/
def goesOn : Call Id → Bool
  | .readPairingHostOpen _ | .afterMessage | .checkInvite _ _ | .rememberHost _ _
  | .store _ .propagate | .storeWrite _ _ .propagate => false
  | call => !call.mayStop

end Call

namespace Task

/-- The connection this task has in the table, unless another took its key. -/
def registered (task : Task Id) : Option (String × Connection Id) :=
  if (task.todo.head?.bind Call.inserted).isSome then none else task.wait.holds

/-- The task will remove the entry of `key`, whatever it meets on the way. -/
def Closing (key : String) (task : Task Id) : Prop :=
  (∃ call ∈ task.todo, call.drops key = true) ∧ ∀ call ∈ task.todo, call.goesOn = true

instance (key : String) (task : Task Id) : Decidable (task.Closing key) := by
  unfold Closing
  infer_instance

/-- The keys this task answers for by name. -/
def keys (task : Task Id) : List String :=
  (task.registered.map Prod.fst).toList ++ task.todo.filterMap fun
    | .removeSession key => some key
    | _ => none

/-- A task registers the connection it serves, before anything else it does
with it, and makes every call it owes while it serves it. -/
structure KeepsSession (task : Task Id) : Prop where
  first : ∀ held, task.todo.head?.bind Call.inserted = some held → task.wait.holds = some held
  once : ∀ call ∈ task.todo.tail, call.inserted = none
  steady : task.wait.holds.isSome = true → ∀ call ∈ task.todo, call.goesOn = true
  gateLast : ∀ call ∈ task.todo.dropLast, call.isGate = false

end Task

section Calls

omit [EndpointKeys Id] in
/-- What works an unpairing off inserts no session, is no gate and ends no task. -/
theorem Call.of_isUnpairing {call : Call Id} (h : call.isUnpairing = true) :
    call.inserted = none ∧ call.isGate = false ∧ call.goesOn = true := by
  unfold isUnpairing at h
  split at h <;> first | exact ⟨rfl, rfl, rfl⟩ | cases h

omit [EndpointKeys Id] in
/-- No task begins by inserting a session. -/
theorem Call.of_isFirst {call : Call Id} (h : call.isFirst = true) : call.inserted = none := by
  unfold isFirst at h
  split at h <;> first | rfl | cases h

theorem Wait.holds_of_isFirst {wait : Wait Id} (h : wait.isFirst = true) :
    wait.holds = none := by
  cases wait <;> first | rfl | cases h

omit [EndpointKeys Id] in
/-- A call that drops a key leaves no session under it. -/
theorem Call.tableAfter_of_drops {call : Call Id} {key : String}
    (sessions : String → Option (Connection Id)) (h : call.drops key = true) :
    call.tableAfter sessions key = none := by
  cases call with
  | removeSession other =>
      obtain rfl : other = key := by simpa [drops] using h
      exact Function.update_self ..
  | clearSessions => rfl
  | _ => cases h

omit [EndpointKeys Id] in
/-- A call that neither drops nor inserts a key leaves its session alone. -/
theorem Call.tableAfter_of_not_drops {call : Call Id} {key : String}
    (sessions : String → Option (Connection Id)) (h : call.drops key = false)
    (hInserted : ∀ conn, call.inserted ≠ some (key, conn)) :
    call.tableAfter sessions key = sessions key := by
  cases call with
  | insertSession other conn =>
      refine Function.update_of_ne ?_ _ _
      rintro rfl
      exact hInserted conn rfl
  | removeSession other =>
      refine Function.update_of_ne ?_ _ _
      rintro rfl
      simp [drops] at h
  | clearSessions => cases h
  | _ => rfl

/-- A task that registers nothing and reads no gate. -/
theorem Task.KeepsSession.of_plain {todo : List (Call Id)} {wait : Wait Id}
    (hPlain : ∀ call ∈ todo, call.inserted = none ∧ call.isGate = false)
    (hSteady : wait.holds.isSome = true → ∀ call ∈ todo, call.goesOn = true) :
    Task.KeepsSession ⟨todo, wait⟩ where
  first := by
    intro held hHeld
    obtain ⟨call, hHead, hInserted⟩ := Option.bind_eq_some_iff.mp hHeld
    rw [(hPlain call (List.mem_of_head? hHead)).1] at hInserted
    cases hInserted
  once := fun call hMem => (hPlain call (List.mem_of_mem_tail hMem)).1
  steady := hSteady
  gateLast := fun call hMem => (hPlain call (List.mem_of_mem_dropLast hMem)).2

/-- A task that has returned keeps no session. -/
theorem Task.keepsSession_returned (ok : Bool) : (Task.returned ok : Task Id).KeepsSession :=
  .of_plain (by simp) (by simp)

omit [EndpointKeys Id] in
/-- Only an inbound connection reads the gate, as the last thing it has to do. -/
theorem Command.Starts.gateLast {command : Command Id} {task : Task Id} (h : command.Starts task) :
    ∀ call ∈ task.todo.dropLast, call.isGate = false := by
  cases h <;> simp [Task.returned, managerForget, AltSendme.startPairingHost,
    AltSendme.stopPairingHost, Call.isGate]

/-- A new task keeps no session yet. -/
theorem NewTask.keepsSession {task : Task Id} (h : NewTask task) : task.KeepsSession := by
  obtain ⟨hTodo, hWait⟩ := h.isFirst
  have hInserted (call : Call Id) (hMem : call ∈ task.todo) : call.inserted = none :=
    Call.of_isFirst (List.all_eq_true.mp hTodo call hMem)
  refine ⟨?_, fun call hMem => hInserted call (List.mem_of_mem_tail hMem), ?_, ?_⟩
  · intro held hHeld
    obtain ⟨call, hHead, hSome⟩ := Option.bind_eq_some_iff.mp hHeld
    rw [hInserted call (List.mem_of_head? hHead)] at hSome
    cases hSome
  · rw [Wait.holds_of_isFirst hWait]
    simp
  · cases h with
    | command command => exact command.starts.gateLast
    | _ => simp

omit [EndpointKeys Id] in
theorem Call.mayStop_of_goesOn {call : Call Id} (h : call.goesOn = true) :
    call.mayStop = false := by
  unfold goesOn at h
  split at h
  all_goals first
    | cases h
    | exact Bool.not_eq_true' _ ▸ h

/-- A call that goes on leaves the calls behind it, and what the task awaits. -/
theorem Call.Moves.goesOn {n : Node Id} {fresh : Nat} {wait : Wait Id} {rest : List (Call Id)}
    {call : Call Id} {task' : Task Id} (h : call.Moves n fresh wait rest task')
    (hCall : call.goesOn = true) :
    ∃ pushed, task' = ⟨pushed ++ rest, wait⟩ ∧
      ∀ c ∈ pushed, c.inserted = none ∧ c.isGate = false ∧ c.goesOn = true := by
  have hResumed (cont : StoreCont Id) (reply : Except String (Option PairedDevice))
      (hCont : cont ≠ .propagate) :
      ∃ pushed, cont.resume rest wait reply = ⟨pushed ++ rest, wait⟩ ∧
        ∀ c ∈ pushed, c.inserted = none ∧ c.isGate = false ∧ c.goesOn = true := by
    rcases cont.resume_eq rest wait reply with ⟨hProp, _⟩ | ⟨pushed, hNext, hAll⟩
    · exact (hCont hProp).elim
    · exact ⟨pushed, hNext, fun c hc => Call.of_isUnpairing (List.all_eq_true.mp hAll c hc)⟩
  cases h with
  | onward => exact ⟨[], rfl, by simp⟩
  | stopped _ ok hStop =>
      rw [mayStop_of_goesOn hCall] at hStop
      cases hStop
  | gateRead | gatePaired | gatePassed | completed | invited | remembering | connecting =>
      cases hCall
  | storeRead op cont =>
      refine ⟨[.storeWrite op n.file cont], rfl, ?_⟩
      cases cont with
      | propagate => cases hCall
      | _ => simp [inserted, isGate, Call.goesOn, mayStop]
  | storeKept op cont reply =>
      refine hResumed cont reply ?_
      rintro rfl
      cases hCall
  | storeWritten op base cont reply =>
      refine hResumed cont reply ?_
      rintro rfl
      cases hCall
  | _ => exact ⟨[_], rfl, by simp [inserted, isGate, Call.goesOn, mayStop]⟩

/-- The calls a call puts in its own place, before those behind it. -/
theorem Task.KeepsSession.push {call : Call Id} {pushed rest : List (Call Id)}
    {wait : Wait Id} (hTask : Task.KeepsSession ⟨call :: rest, wait⟩) (wait' : Wait Id)
    (hPushed : ∀ c ∈ pushed, c.inserted = none ∧ c.isGate = false)
    (hSteady : wait'.holds.isSome = true → ∀ c ∈ pushed ++ rest, c.goesOn = true) :
    Task.KeepsSession ⟨pushed ++ rest, wait'⟩ ∧
      Task.registered ⟨pushed ++ rest, wait'⟩ = wait'.holds := by
  have hNone (c : Call Id) (hc : c ∈ pushed ++ rest) : c.inserted = none := by
    rcases List.mem_append.mp hc with hNew | hOld
    · exact (hPushed c hNew).1
    · exact hTask.once c hOld
  have hHead : (pushed ++ rest).head?.bind Call.inserted = none := by
    cases hFirst : (pushed ++ rest).head? with
    | none => rfl
    | some c => exact hNone c (List.mem_of_head? hFirst)
  refine ⟨⟨?_, fun c hc => hNone c (List.mem_of_mem_tail hc), hSteady, ?_⟩, ?_⟩
  · intro held hHeld
    rw [hHead] at hHeld
    cases hHeld
  · intro c hc
    by_cases hRest : rest = []
    · subst hRest
      exact (hPushed c (by simpa using List.mem_of_mem_dropLast hc)).2
    · rw [List.dropLast_append_of_ne_nil hRest] at hc
      rcases List.mem_append.mp hc with hNew | hOld
      · exact (hPushed c hNew).2
      · refine hTask.gateLast c ?_
        rw [List.dropLast_cons_of_ne_nil hRest]
        exact List.mem_cons_of_mem call hOld
  · rw [Task.registered, hHead]
    rfl

/-- A call of a task that serves no connection registers none by itself. -/
theorem Task.KeepsSession.of_moves_idle {n : Node Id} {fresh : Nat} {wait : Wait Id}
    {rest : List (Call Id)} {call : Call Id} {task' : Task Id}
    (hTask : Task.KeepsSession ⟨call :: rest, wait⟩) (hIdle : wait.holds = none)
    (h : call.Moves n fresh wait rest task') :
    task'.KeepsSession ∧ task'.registered = none := by
  have hPush (pushed : List (Call Id)) (wait' : Wait Id) (hWait : wait'.holds = none)
      (hPushed : ∀ c ∈ pushed, c.inserted = none ∧ c.isGate = false) :
      Task.KeepsSession ⟨pushed ++ rest, wait'⟩ ∧
        Task.registered ⟨pushed ++ rest, wait'⟩ = none := by
    obtain ⟨hKeeps, hRegistered⟩ := hTask.push wait' hPushed (by simp [hWait])
    exact ⟨hKeeps, hRegistered.trans hWait⟩
  have hResumed (cont : StoreCont Id) (reply : Except String (Option PairedDevice)) :
      (cont.resume rest wait reply).KeepsSession ∧
        (cont.resume rest wait reply).registered = none := by
    rcases cont.resume_eq rest wait reply with ⟨_, hNext⟩ | ⟨pushed, hNext, hAll⟩
    · rw [hNext]
      exact ⟨Task.keepsSession_returned false, rfl⟩
    · rw [hNext]
      refine hPush pushed wait hIdle fun c hc => ?_
      obtain ⟨hInserted, hGate, _⟩ := Call.of_isUnpairing (List.all_eq_true.mp hAll c hc)
      exact ⟨hInserted, hGate⟩
  have hLast (hGate : call.isGate = true) : rest = [] := by
    by_contra hRest
    have hFalse := hTask.gateLast call (by
      rw [List.dropLast_cons_of_ne_nil hRest]
      exact List.mem_cons_self)
    rw [hGate] at hFalse
    cases hFalse
  cases h with
  | onward => exact hPush [] wait hIdle (by simp)
  | stopped _ ok => exact ⟨Task.keepsSession_returned ok, rfl⟩
  | gateRead conn =>
      obtain rfl := hLast rfl
      exact ⟨⟨by simp [Call.inserted], by simp, by simp [hIdle], by simp⟩, by
        simp [Task.registered, Call.inserted, hIdle]⟩
  | gatePaired conn isOpen =>
      obtain rfl := hLast rfl
      refine ⟨⟨?_, ?_, ?_, ?_⟩, rfl⟩
      · rintro held hHeld
        obtain rfl := Option.some.inj hHeld
        rfl
      all_goals
        simp [registerInbound, setSession, Call.inserted, Call.isGate, Call.goesOn, Call.mayStop]
  | gatePassed conn => exact hPush [] (.acceptBi conn) rfl (by simp)
  | completed conn s info now =>
      refine ⟨.of_plain ?_ ?_, rfl⟩ <;> simp [Call.inserted, Call.isGate, Wait.holds]
  | invited conn other s invite =>
      exact hPush [_, _] (.pairing other _) rfl (by simp [Call.inserted, Call.isGate])
  | storeKept _ cont reply | storeWritten _ _ cont reply => exact hResumed cont reply
  | connecting endpointId relayUrl => exact hPush [] (.connecting endpointId relayUrl) rfl (by simp)
  | _ => exact hPush [_] wait hIdle (by simp [Call.inserted, Call.isGate])

/-- What a call does to its own task. -/
theorem Task.KeepsSession.of_moves {n : Node Id} {fresh : Nat} {wait : Wait Id}
    {rest : List (Call Id)} {call : Call Id} {task' : Task Id}
    (hTask : Task.KeepsSession ⟨call :: rest, wait⟩) (h : call.Moves n fresh wait rest task') :
    task'.KeepsSession ∧ task'.registered = wait.holds ∧
      ∀ key, Task.Closing key ⟨call :: rest, wait⟩ → call.drops key = false →
        task'.Closing key := by
  by_cases hGoes : call.goesOn = true
  · obtain ⟨pushed, rfl, hPushed⟩ := h.goesOn hGoes
    have hAll (hRest : ∀ c ∈ rest, c.goesOn = true) : ∀ c ∈ pushed ++ rest, c.goesOn = true := by
      intro c hc
      rcases List.mem_append.mp hc with hNew | hOld
      · exact (hPushed c hNew).2.2
      · exact hRest c hOld
    obtain ⟨hKeeps, hRegistered⟩ := hTask.push wait
      (fun c hc => ⟨(hPushed c hc).1, (hPushed c hc).2.1⟩)
      (fun hHolds => hAll fun c hc => hTask.steady hHolds c (List.mem_cons_of_mem call hc))
    refine ⟨hKeeps, hRegistered, ?_⟩
    rintro key ⟨⟨c, hMem, hDrops⟩, hSteady⟩ hKept
    refine ⟨?_, hAll fun c hc => hSteady c (List.mem_cons_of_mem call hc)⟩
    rcases List.mem_cons.mp hMem with rfl | hOld
    · rw [hKept] at hDrops
      cases hDrops
    · exact ⟨c, List.mem_append_right pushed hOld, hDrops⟩
  · have hIdle : wait.holds = none := by
      by_contra hSome
      exact hGoes (hTask.steady (Option.isSome_iff_ne_none.mpr hSome) call List.mem_cons_self)
    obtain ⟨hKeeps, hRegistered⟩ := hTask.of_moves_idle hIdle h
    rw [hIdle]
    exact ⟨hKeeps, hRegistered, fun _ hClosing => (hGoes (hClosing.2 call List.mem_cons_self)).elim⟩

end Calls

section Answers
variable {n : Node Id} (conn : Connection Id) (m : ControlMessage)

/-- A task that registers nothing and makes all its calls. -/
theorem Task.served_of_plain {todo : List (Call Id)} (wait : Wait Id)
    (h : ∀ c ∈ todo, c.inserted = none ∧ c.isGate = false ∧ c.goesOn = true) :
    Task.KeepsSession ⟨todo, wait⟩ ∧ Task.registered ⟨todo, wait⟩ = wait.holds := by
  refine ⟨.of_plain (fun c hc => ⟨(h c hc).1, (h c hc).2.1⟩) (fun _ c hc => (h c hc).2.2), ?_⟩
  cases todo with
  | nil => rfl
  | cons call rest =>
      simp only [Task.registered, List.head?_cons, Option.bind_some, (h call List.mem_cons_self).1]
      rfl

/-- An answer to Recognition neither inserts a session nor ends the task. -/
theorem onRecognition_goesOn (signature : String) :
    ∀ c ∈ onRecognition conn signature, c.inserted = none ∧ c.isGate = false ∧ c.goesOn = true := by
  unfold onRecognition
  split <;> simp [Call.inserted, Call.isGate, Call.goesOn, Call.mayStop]

/-- An answer to Forget neither inserts a session nor ends the task. -/
theorem onForget_goesOn (signature : String) (paired : Bool) :
    ∀ c ∈ onForget conn signature paired,
      c.inserted = none ∧ c.isGate = false ∧ c.goesOn = true := by
  unfold onForget
  split <;> simp [Call.inserted, Call.isGate, Call.goesOn, Call.mayStop]

/-- The pairing loop answers without a session. -/
theorem onPairingMessage_unregistered (s : PairingSession) :
    (onPairingMessage conn s m).KeepsSession ∧ (onPairingMessage conn s m).registered = none := by
  have hPlain {todo : List (Call Id)} {s' : PairingSession}
      (h : ∀ c ∈ todo, c.inserted = none ∧ c.isGate = false) :
      Task.KeepsSession ⟨todo, .pairing conn s'⟩ ∧
        Task.registered ⟨todo, .pairing conn s'⟩ = none :=
    ⟨.of_plain h (by simp [Wait.holds]), ite_self _⟩
  cases m with
  | pairingInfo info =>
      unfold onPairingMessage
      dsimp only
      split <;> exact hPlain (by simp [Call.inserted, Call.isGate])
  | recognition signature =>
      refine hPlain fun c hc => ?_
      rcases List.mem_append.mp hc with hc | hc
      · have hCalls := onRecognition_goesOn conn signature c hc
        exact ⟨hCalls.1, hCalls.2.1⟩
      · obtain rfl := List.mem_singleton.mp hc
        exact ⟨rfl, rfl⟩
  | forget signature =>
      refine hPlain fun c hc => ?_
      rcases List.mem_append.mp hc with hc | hc
      · have hCalls := onForget_goesOn conn signature false c hc
        exact ⟨hCalls.1, hCalls.2.1⟩
      · obtain rfl := List.mem_singleton.mp hc
        exact ⟨rfl, rfl⟩
  | _ => exact hPlain (by simp [Call.inserted, Call.isGate])

/-- A paired session serves its connection on, or leaves the table. -/
theorem onPairedMessage_serves :
    (onPairedMessage conn m).KeepsSession ∧
      ((onPairedMessage conn m).registered = some ((toStr conn.remote).toLowercase, conn) ∨
        ((onPairedMessage conn m).registered = none ∧
          (onPairedMessage conn m).Closing (toStr conn.remote).toLowercase)) := by
  have hServed {todo : List (Call Id)}
      (h : ∀ c ∈ todo, c.inserted = none ∧ c.isGate = false ∧ c.goesOn = true) :
      Task.KeepsSession ⟨todo, .pairedAccept conn⟩ ∧
        (Task.registered ⟨todo, .pairedAccept conn⟩ =
            some ((toStr conn.remote).toLowercase, conn) ∨
          (Task.registered ⟨todo, .pairedAccept conn⟩ = none ∧
            Task.Closing (toStr conn.remote).toLowercase ⟨todo, .pairedAccept conn⟩)) := by
    obtain ⟨hKeeps, hRegistered⟩ := Task.served_of_plain (.pairedAccept conn) h
    exact ⟨hKeeps, Or.inl hRegistered⟩
  cases m with
  | recognition signature => exact hServed (onRecognition_goesOn conn signature)
  | forget signature =>
      unfold onPairedMessage
      dsimp only
      split
      · have hAll : ∀ c ∈ onForget conn signature true ++ unregisterInbound (toStr conn.remote),
            c.inserted = none ∧ c.isGate = false ∧ c.goesOn = true := by
          intro c hc
          rcases List.mem_append.mp hc with hc | hc
          · exact onForget_goesOn conn signature true c hc
          · obtain rfl := List.mem_singleton.mp hc
            exact ⟨rfl, rfl, rfl⟩
        obtain ⟨hKeeps, hRegistered⟩ := Task.served_of_plain (.returned true) hAll
        refine ⟨hKeeps, Or.inr ⟨hRegistered, ?_, fun c hc => (hAll c hc).2.2⟩⟩
        exact ⟨.removeSession (toStr conn.remote).toLowercase,
          List.mem_append_right _ (List.mem_singleton.mpr rfl), by simp [Call.drops]⟩
      · exact hServed (by simp)
  | _ => exact hServed (by simp [Call.inserted, Call.isGate, Call.goesOn, Call.mayStop])

/-- The outbound loop answers under the session it has registered. -/
theorem onOutboundMessage_serves (endpointId : String) (relayUrl : Option String) :
    (onOutboundMessage endpointId relayUrl conn m).KeepsSession ∧
      (onOutboundMessage endpointId relayUrl conn m).registered =
        some (endpointId.toLowercase, conn) := by
  cases m with
  | recognition signature => exact Task.served_of_plain _ (onRecognition_goesOn conn signature)
  | _ =>
      exact Task.served_of_plain _
        (by simp [Call.inserted, Call.isGate, Call.goesOn, Call.mayStop])

/-- A joiner has no session before its pairing is through. -/
theorem onHostInfo_unregistered (relayUrl : Option String) :
    (onHostInfo conn relayUrl m).KeepsSession ∧
      (onHostInfo conn relayUrl m).registered = none := by
  cases m with
  | pairingInfo info =>
      unfold onHostInfo
      dsimp only
      split
      · exact ⟨Task.keepsSession_returned false, rfl⟩
      · exact ⟨.of_plain (by simp [Call.inserted, Call.isGate]) (by simp [Wait.holds]), rfl⟩
  | _ => exact ⟨Task.keepsSession_returned false, rfl⟩

/-- After an answer a task serves what it served, or is about to leave the table. -/
theorem Task.KeepsSession.of_resume {wait : Wait Id} {input : Input} {task' : Task Id}
    (h : wait.resume n input = some task') :
    task'.KeepsSession ∧ (task'.registered = wait.holds ∨
      (task'.registered = none ∧ ∀ held, wait.holds = some held → task'.Closing held.1)) := by
  have hClosed {key : String} {conn : Connection Id} {wait' : Wait Id}
      (hWait : wait'.holds = none) :
      Task.KeepsSession ⟨[.removeSession key], wait'⟩ ∧
        (Task.registered ⟨[.removeSession key], wait'⟩ = some (key, conn) ∨
          (Task.registered ⟨[.removeSession key], wait'⟩ = none ∧
            ∀ held, some (key, conn) = some held →
              Task.Closing held.1 ⟨[.removeSession key], wait'⟩)) := by
    have hPlain : ∀ c ∈ [(.removeSession key : Call Id)],
        c.inserted = none ∧ c.isGate = false ∧ c.goesOn = true := by
      simp [Call.inserted, Call.isGate, Call.goesOn, Call.mayStop]
    obtain ⟨hKeeps, hRegistered⟩ := Task.served_of_plain wait' hPlain
    refine ⟨hKeeps, Or.inr ⟨hRegistered.trans hWait, ?_⟩⟩
    rintro held hHeld
    obtain rfl := Option.some.inj hHeld
    simp [Task.Closing, Call.drops, Call.goesOn, Call.mayStop]
  cases wait <;> cases input <;>
    simp only [Wait.resume, reduceCtorEq, Option.some.injEq, Option.map_eq_some_iff] at h
  case pairing.message conn s m =>
    subst h
    obtain ⟨hKeeps, hNone⟩ := onPairingMessage_unregistered conn m s
    exact ⟨hKeeps, Or.inl hNone⟩
  case pairedRead.message conn m =>
    subst h
    obtain ⟨hKeeps, hSame | ⟨hNone, hClosing⟩⟩ := onPairedMessage_serves conn m
    · exact ⟨hKeeps, Or.inl hSame⟩
    · refine ⟨hKeeps, Or.inr ⟨hNone, ?_⟩⟩
      rintro held hHeld
      obtain rfl := Option.some.inj hHeld
      exact hClosing
  case outboundRead.message endpointId relayUrl conn m =>
    subst h
    obtain ⟨hKeeps, hSame⟩ := onOutboundMessage_serves conn m endpointId relayUrl
    exact ⟨hKeeps, Or.inl hSame⟩
  case joinRead.message conn relayUrl m =>
    subst h
    obtain ⟨hKeeps, hNone⟩ := onHostInfo_unregistered conn m relayUrl
    exact ⟨hKeeps, Or.inl hNone⟩
  case recognizing.go endpointId relayUrl conn _ =>
    subst h
    refine ⟨⟨?_, ?_, ?_, ?_⟩, Or.inl rfl⟩
    · rintro held hHeld
      obtain rfl := Option.some.inj hHeld
      rfl
    all_goals simp [setSession, Call.inserted, Call.isGate, Call.goesOn, Call.mayStop]
  case pairedExport.fail | pairedAccept.closed | outboundAccept.closed | outboundRead.closed =>
    subst h
    exact hClosed rfl
  case connecting.connected | notifyWait.go =>
    obtain ⟨_, _, rfl⟩ := h
    exact ⟨.of_plain (by simp) (by simp), Or.inl rfl⟩
  case notifyConnect.connected fallbackPresence _ _ _ =>
    subst h
    cases fallbackPresence <;>
      exact ⟨.of_plain (by simp [Call.inserted, Call.isGate]) (by simp [Wait.holds]), Or.inl rfl⟩
  case pairing.closed conn s =>
    subst h
    have hEnded : (pairingLoopEnded conn s).wait.holds = none := by
      unfold pairingLoopEnded
      dsimp only
      split <;> rfl
    have hCalls : ∀ c ∈ (pairingLoopEnded conn s).todo,
        c.inserted = none ∧ c.isGate = false ∧ c.goesOn = true := by
      unfold pairingLoopEnded
      dsimp only
      split <;> simp [Call.inserted, Call.isGate, Call.goesOn, Call.mayStop]
    obtain ⟨hKeeps, hRegistered⟩ := Task.served_of_plain (pairingLoopEnded conn s).wait hCalls
    exact ⟨hKeeps, Or.inl (hRegistered.trans hEnded)⟩
  case supervising.go =>
    split at h
    · cases h
      exact ⟨Task.keepsSession_returned true, Or.inl rfl⟩
    · cases h
      exact ⟨.of_plain (by simp [Call.inserted, Call.isGate]) (by simp [Wait.holds]), Or.inl rfl⟩
  all_goals
    subst h
    exact ⟨.of_plain (by simp [Call.inserted, Call.isGate]) (by simp [Wait.holds]), Or.inl rfl⟩

end Answers

variable [DecidableEq Id]

/-- The steps of the table are those of three calls. -/
theorem Call.exec_sessions {n n' : Node Id} {fresh : Nat} {wait : Wait Id} {rest : List (Call Id)}
    {call : Call Id} {input : Input} {task' : Task Id} {spawned : List (Task Id)}
    (h : call.exec n fresh wait rest input = some (n', task', spawned)) :
    n'.sessions = call.tableAfter n.sessions := by
  have hChanges := Call.exec_changes h
  cases call with
  | insertSession key conn | removeSession key | clearSessions =>
      cases input <;> simp only [Call.exec, reduceCtorEq, Option.some.injEq, Prod.mk.injEq] at h
      obtain ⟨rfl, _⟩ := h
      rfl
  | setPresence endpointId writer =>
      cases hChanges with
      | kept => rfl
      | presence => exact n.setPresence_sessions endpointId writer.online
  | _ => cases hChanges <;> rfl

/-- A handle that was aborted stays aborted. -/
theorem Call.Changes.aborted {n n' : Node Id} {fresh handle : Nat} {call : Call Id}
    (h : call.Changes n fresh n') (hAborted : handle ∈ n.aborted) : handle ∈ n'.aborted := by
  cases h with
  | expireTaken | connectTaskRemoved | refreshed | managerStopped =>
      exact List.mem_append_left _ hAborted
  | presence endpointId writer =>
      rw [n.setPresence_aborted endpointId writer.online]
      exact hAborted
  | _ => exact hAborted

/-- The removals of a run: an entry goes only when no connection of its key is
served any more, and an abort leaves none behind. -/
def LastLeaves (c : NodeConfig Id) : NodeLabel Id → Prop
  | .turn t .cancelled =>
      match c.tasks[t]? with
      | some task => .clearSessions ∉ task.todo ∧ ∀ key ∈ task.keys,
          c.shared.sessions key = none ∨
            ∃ entry ∈ c.tasks.zipIdx, entry.2 ≠ t ∧ entry.1.Closing key
      | none => True
  | .turn t _ =>
      match nextCall c t with
      | some call => ∀ entry ∈ c.tasks.zipIdx, ∀ held ∈ entry.1.registered,
          call.drops held.1 = true → entry.2 ∈ c.shared.aborted
      | none => True
  | _ => True

/-- What a turn does to the table, to its own connection and to its own duties. -/
structure Task.Serves (n : Node Id) (task : Task Id) (n' : Node Id) (task' : Task Id) : Prop where
  keeps : task'.KeepsSession
  entry : ∀ key conn, n'.sessions key = some conn → task'.registered = some (key, conn) ∨
    (n.sessions key = some conn ∧ (task.registered = some (key, conn) ∨ task.Closing key →
      task'.registered = some (key, conn) ∨ task'.Closing key))
  registered : ∀ held, task'.registered = some held →
    task.registered = some held ∨ n'.sessions held.1 = some held.2
  present : ∀ key, (n.sessions key).isSome = true → (n'.sessions key).isSome = true ∨
    ∃ call rest, task.todo = call :: rest ∧ call.drops key = true

/-- One call of a task changes the table as the task's session says. -/
theorem Task.KeepsSession.serves_of_call {n n' : Node Id} {fresh : Nat} {wait : Wait Id}
    {rest : List (Call Id)} {call : Call Id} {input : Input} {task' : Task Id}
    {spawned : List (Task Id)} (hTask : Task.KeepsSession ⟨call :: rest, wait⟩)
    (h : call.exec n fresh wait rest input = some (n', task', spawned)) :
    Task.Serves n ⟨call :: rest, wait⟩ n' task' := by
  obtain ⟨hKeeps, hRegistered, hClosing⟩ := hTask.of_moves (Call.exec_moves h)
  have hSessions := Call.exec_sessions h
  have hHolds (held : String × Connection Id)
      (hHeld : Task.registered ⟨call :: rest, wait⟩ = some held) : task'.registered = some held := by
    rw [hRegistered]
    unfold Task.registered at hHeld
    split at hHeld
    · cases hHeld
    · exact hHeld
  refine ⟨hKeeps, ?_, ?_, ?_⟩
  · intro key conn hEntry
    rw [hSessions] at hEntry
    have hKept : call.drops key = false := by
      by_contra hDrops
      rw [call.tableAfter_of_drops _ (by simpa using hDrops)] at hEntry
      cases hEntry
    by_cases hInserted : ∃ conn', call.inserted = some (key, conn')
    · obtain ⟨conn', hInserted⟩ := hInserted
      left
      cases call with
      | insertSession other conn'' =>
          obtain ⟨rfl, rfl⟩ := by simpa [Call.inserted] using hInserted
          obtain rfl : conn'' = conn := by simpa [Call.tableAfter] using hEntry
          rw [hRegistered]
          exact hTask.first _ rfl
      | _ => cases hInserted
    · right
      rw [call.tableAfter_of_not_drops _ hKept fun conn' hSome => hInserted ⟨conn', hSome⟩] at hEntry
      exact ⟨hEntry, Or.imp (hHolds _) fun hOld => hClosing key hOld hKept⟩
  · intro held hHeld
    cases hInserted : call.inserted with
    | none =>
        left
        rw [← hHeld, hRegistered]
        simp [Task.registered, hInserted]
    | some inserted =>
        right
        have hFirst := hTask.first inserted hInserted
        rw [hRegistered, hFirst, Option.some.injEq] at hHeld
        subst hHeld
        cases call with
        | insertSession key conn =>
            obtain rfl := Option.some.inj hInserted
            rw [hSessions]
            exact Function.update_self ..
        | _ => cases hInserted
  · intro key hPresent
    cases hDrops : call.drops key with
    | true => exact Or.inr ⟨call, rest, rfl, hDrops⟩
    | false =>
        left
        rw [hSessions]
        by_cases hInserted : ∃ conn', call.inserted = some (key, conn')
        · obtain ⟨conn', hInserted⟩ := hInserted
          cases call with
          | insertSession other conn =>
              obtain ⟨rfl, rfl⟩ := by simpa [Call.inserted] using hInserted
              simp [Call.tableAfter]
          | _ => cases hInserted
        · rwa [call.tableAfter_of_not_drops _ hDrops fun conn' hSome => hInserted ⟨conn', hSome⟩]

/-- One turn of a task changes the table as the task's session says. -/
theorem Task.KeepsSession.serves_of_turn {n n' : Node Id} {self fresh : Nat}
    {task task' : Task Id} {input : Input} {spawned : List (Task Id)}
    (hTask : task.KeepsSession) (hInput : input ≠ .cancelled)
    (hTurn : task.turn n self fresh input = some (n', task', spawned)) :
    task.Serves n n' task' := by
  rcases Task.turn_eq_some hTurn with ⟨hCancelled, _⟩ | ⟨hTodo, rfl, _, hNext⟩ |
    ⟨call, rest, hTodo, hExec⟩
  · exact (hInput hCancelled).elim
  · obtain ⟨todo, wait⟩ := task
    obtain rfl : todo = [] := hTodo
    obtain ⟨hKeeps, hSame | ⟨hNone, hClosing⟩⟩ := Task.KeepsSession.of_resume hNext
    · refine ⟨hKeeps, ?_, fun held hHeld => Or.inl (hSame.symm.trans hHeld), fun _ => Or.inl⟩
      refine fun key conn hEntry => Or.inr ⟨hEntry, Or.imp (fun hHeld => hSame.trans hHeld) ?_⟩
      rintro ⟨⟨call, hMem, _⟩, _⟩
      cases hMem
    · refine ⟨hKeeps, ?_, fun held hHeld => ?_, fun _ => Or.inl⟩
      · refine fun key conn hEntry => Or.inr ⟨hEntry, ?_⟩
        rintro (hHeld | ⟨⟨call, hMem, _⟩, _⟩)
        · exact Or.inr (hClosing _ hHeld)
        · cases hMem
      · rw [hNone] at hHeld
        cases hHeld
  · obtain ⟨todo, wait⟩ := task
    obtain rfl : todo = call :: rest := hTodo
    exact hTask.serves_of_call hExec

/-- The table against all tasks. An entry is some task's connection, or about
to be removed, and a connection that is served has an entry under its key. -/
structure TableFollows (c : NodeConfig Id) : Prop where
  keeps : c.All fun _ task => task.KeepsSession
  entry : ∀ key conn, c.shared.sessions key = some conn →
    ∃ (t : Nat) (task : Task Id), c.tasks[t]? = some task ∧
      (task.registered = some (key, conn) ∨ task.Closing key)
  present : ∀ (t : Nat) (task : Task Id) (held : String × Connection Id),
    c.tasks[t]? = some task → task.registered = some held → t ∉ c.shared.aborted →
      (c.shared.sessions held.1).isSome = true

omit [DecidableEq Id] in
/-- A new task has registered nothing. -/
theorem NewTask.registered {task : Task Id} (h : NewTask task) : task.registered = none := by
  rw [Task.registered, Wait.holds_of_isFirst h.isFirst.2]
  exact ite_self _

/-- A start has an empty table and no session. -/
theorem tableFollows_started (restart : Restart Id) (file : List PairedDevice) :
    TableFollows (started restart file) where
  keeps := fun _ _ hNew => (started_new hNew).keepsSession
  entry := fun _ _ hEntry => (nomatch hEntry)
  present := by
    intro t task held hNew hHeld
    rw [(started_new hNew).registered] at hHeld
    cases hHeld

omit [DecidableEq Id] in
/-- An abort that meets the condition leaves an entry only to another task. -/
theorem LastLeaves.of_cancelled {c : NodeConfig Id} {t : Nat} {task : Task Id} {key : String}
    {conn : Connection Id} (h : LastLeaves c (.turn t .cancelled)) (hTask : c.tasks[t]? = some task)
    (hOwn : task.registered = some (key, conn) ∨ task.Closing key) :
    c.shared.sessions key = none ∨
      ∃ (u : Nat) (other : Task Id), u ≠ t ∧ c.tasks[u]? = some other ∧ other.Closing key := by
  simp only [LastLeaves, hTask] at h
  obtain ⟨hClear, hKeys⟩ := h
  have hKey : key ∈ task.keys := by
    rcases hOwn with hHeld | ⟨⟨call, hMem, hDrops⟩, _⟩
    · exact List.mem_append_left _ (by simp [hHeld])
    · refine List.mem_append_right _ (List.mem_filterMap.mpr ⟨call, hMem, ?_⟩)
      cases call with
      | removeSession other => simpa [Call.drops] using hDrops
      | clearSessions => exact (hClear hMem).elim
      | _ => cases hDrops
  refine (hKeys key hKey).imp_right ?_
  rintro ⟨⟨other, u⟩, hMem, hOther, hClosing⟩
  exact ⟨u, other, hOther, List.mem_zipIdx_iff_getElem?.mp hMem, hClosing⟩

omit [DecidableEq Id] in
/-- A removal that meets the condition finds only aborted tasks at its key. -/
theorem LastLeaves.of_drops {c : NodeConfig Id} {t u : Nat} {input : Input} {task other : Task Id}
    {call : Call Id} {rest : List (Call Id)} {held : String × Connection Id}
    (h : LastLeaves c (.turn t input)) (hInput : input ≠ .cancelled)
    (hTask : c.tasks[t]? = some task) (hTodo : task.todo = call :: rest)
    (hDrops : call.drops held.1 = true) (hOther : c.tasks[u]? = some other)
    (hHeld : other.registered = some held) : u ∈ c.shared.aborted := by
  have hNext : nextCall c t = some call := nextCall_eq_some.mpr ⟨task, rest, hTask, hTodo⟩
  cases input with
  | cancelled => exact (hInput rfl).elim
  | _ =>
      simp only [LastLeaves, hNext] at h
      exact h (other, u) (List.mem_zipIdx_iff_getElem?.mpr hOther) held hHeld hDrops

omit [DecidableEq Id] in
/-- A cancelled task that was nobody's last leaves the table following. -/
theorem tableFollows_cancelled {c : NodeConfig Id} {t : Nat} {task : Task Id}
    (hInv : TableFollows c) (hLast : LastLeaves c (.turn t .cancelled))
    (hTask : c.tasks[t]? = some task) :
    TableFollows ⟨c.shared, c.tasks.set t (Task.returned false) ++ []⟩ := by
  have hLength := (List.getElem?_eq_some_iff.mp hTask).1
  refine ⟨?_, ?_, ?_⟩
  · intro u found hFound
    rcases getElem?_after_turn hFound with ⟨_, _, rfl⟩ | ⟨_, hOld⟩ | ⟨_, hNew⟩
    · exact Task.keepsSession_returned false
    · exact hInv.keeps u found hOld
    · cases hNew
  · intro key conn hEntry
    obtain ⟨u, found, hFound, hOwner⟩ := hInv.entry key conn hEntry
    by_cases hSame : u = t
    · subst hSame
      obtain rfl := Option.some.inj (hTask.symm.trans hFound)
      rcases hLast.of_cancelled hTask hOwner with hNone | ⟨v, other, hne, hOther, hClosing⟩
      · rw [hNone] at hEntry
        cases hEntry
      · exact ⟨v, other, getElem?_turn_other hne hOther, Or.inr hClosing⟩
    · exact ⟨u, found, getElem?_turn_other hSame hFound, hOwner⟩
  · intro u found held hFound hHeld hAlive
    rcases getElem?_after_turn hFound with ⟨_, _, rfl⟩ | ⟨_, hOld⟩ | ⟨_, hNew⟩
    · cases hHeld
    · exact hInv.present u found held hOld hHeld hAlive
    · cases hNew

/-- One turn leaves the table following the open sessions. -/
theorem tableFollows_turn {c : NodeConfig Id} {t : Nat} {input : Input} {task task' : Task Id}
    {n' : Node Id} {spawned : List (Task Id)} (hInv : TableFollows c)
    (hLast : LastLeaves c (.turn t input)) (hInput : input ≠ .cancelled)
    (hTask : c.tasks[t]? = some task)
    (hTurn : task.turn c.shared t c.tasks.length input = some (n', task', spawned)) :
    TableFollows ⟨n', c.tasks.set t task' ++ spawned⟩ := by
  have hLength := (List.getElem?_eq_some_iff.mp hTask).1
  have hServes := (hInv.keeps t task hTask).serves_of_turn hInput hTurn
  have hAborted (u : Nat) (hAlive : u ∉ n'.aborted) : u ∉ c.shared.aborted := by
    intro hOld
    rcases Task.turn_changes hTurn with rfl | ⟨call, rest, _, hChanges, _⟩
    · exact hAlive hOld
    · exact hAlive (hChanges.aborted hOld)
  have hPresent (u : Nat) (other : Task Id) (held : String × Connection Id)
      (hOther : c.tasks[u]? = some other) (hHeld : other.registered = some held)
      (hAlive : u ∉ n'.aborted) : (n'.sessions held.1).isSome = true := by
    have hOld := hInv.present u other held hOther hHeld (hAborted u hAlive)
    rcases hServes.present held.1 hOld with hKept | ⟨call, rest, hTodo, hDrops⟩
    · exact hKept
    · exact (hAborted u hAlive (hLast.of_drops hInput hTask hTodo hDrops hOther hHeld)).elim
  refine ⟨?_, ?_, ?_⟩
  · intro u found hFound
    rcases getElem?_after_turn hFound with ⟨_, _, rfl⟩ | ⟨_, hOld⟩ | ⟨_, hNew⟩
    · exact hServes.keeps
    · exact hInv.keeps u found hOld
    · exact (Task.spawned_new hTurn hNew).keepsSession
  · intro key conn hEntry
    rcases hServes.entry key conn hEntry with hOwn | ⟨hOld, hOwn⟩
    · exact ⟨t, task', getElem?_turn_self hLength, Or.inl hOwn⟩
    · obtain ⟨u, found, hFound, hOwner⟩ := hInv.entry key conn hOld
      by_cases hSame : u = t
      · subst hSame
        obtain rfl := Option.some.inj (hTask.symm.trans hFound)
        exact ⟨u, task', getElem?_turn_self hLength, hOwn hOwner⟩
      · exact ⟨u, found, getElem?_turn_other hSame hFound, hOwner⟩
  · intro u found held hFound hHeld hAlive
    rcases getElem?_after_turn hFound with ⟨rfl, _, rfl⟩ | ⟨_, hOld⟩ | ⟨_, hNew⟩
    · rcases hServes.registered held hHeld with hBefore | hInserted
      · exact hPresent _ task held hTask hBefore hAlive
      · exact Option.isSome_iff_exists.mpr ⟨held.2, hInserted⟩
    · exact hPresent u found held hOld hHeld hAlive
    · rw [(Task.spawned_new hTurn hNew).registered] at hHeld
      cases hHeld

/-- One step leaves the table following the open sessions. -/
theorem tableFollows_step {c d : NodeConfig Id} {l : NodeLabel Id} (hInv : TableFollows c)
    (hLast : LastLeaves c l) (hStep : step c l = some d) : TableFollows d := by
  cases l with
  | call command =>
      obtain rfl := Option.some.inj hStep
      refine ⟨?_, ?_, ?_⟩
      · intro t task hTask
        rcases getElem?_after_call hTask with hOld | ⟨_, rfl⟩
        · exact hInv.keeps t task hOld
        · exact (NewTask.command command).keepsSession
      · intro key conn hEntry
        obtain ⟨t, task, hTask, hOwner⟩ := hInv.entry key conn hEntry
        exact ⟨t, task, getElem?_call_old hTask, hOwner⟩
      · intro t task held hTask hHeld hAlive
        rcases getElem?_after_call hTask with hOld | ⟨_, rfl⟩
        · exact hInv.present t task held hOld hHeld hAlive
        · cases hHeld.symm.trans (NewTask.command command).registered
  | restart restart =>
      obtain rfl := Option.some.inj hStep
      exact tableFollows_started restart c.shared.file
  | turn t input =>
      obtain ⟨task, n', task', spawned, hTask, hTurn, rfl⟩ :=
        (Execution.Pool.next_turn_eq_some _).mp hStep
      by_cases hInput : input = .cancelled
      · subst hInput
        have hEnd : task.turn c.shared t c.tasks.length .cancelled =
          some (n', task', spawned) := hTurn
        obtain ⟨_, rfl, rfl, rfl⟩ := Task.turn_cancelled hEnd
        exact tableFollows_cancelled hInv hLast hTask
      · exact tableFollows_turn hInv hLast hInput hTask hTurn

/-- No connection of `key` is half registered, half removed or half aborted. -/
def Settled (key : String) (c : NodeConfig Id) : Prop :=
  ∀ entry ∈ c.tasks.zipIdx,
    (∀ call ∈ entry.1.todo, call.drops key = false ∧ call.inserted.map Prod.fst ≠ some key) ∧
      (entry.1.wait.holds.map Prod.fst = some key → entry.2 ∉ c.shared.aborted)

instance (key : String) (c : NodeConfig Id) : Decidable (Settled key c) := by
  unfold Settled
  infer_instance

instance (c : NodeConfig Id) (l : NodeLabel Id) : Decidable (LastLeaves c l) := by
  rcases l with command | ⟨t, input⟩ | restart
  · exact .isTrue trivial
  · rcases input
    case cancelled =>
      dsimp only [LastLeaves]
      rcases c.tasks[t]? with _ | task
      · exact .isTrue trivial
      · exact inferInstanceAs (Decidable (_ ∧ _))
    all_goals
      dsimp only [LastLeaves]
      rcases nextCall c t with _ | call
      · exact .isTrue trivial
      · exact inferInstanceAs (Decidable (∀ entry ∈ c.tasks.zipIdx, _))
  · exact .isTrue trivial

/-- Where nothing is half done, the table has an entry for a key exactly when
some task still serves a connection of it, and the entry is such a connection. -/
theorem session_present_iff_connection_open {restart : Restart Id} {file : List PairedDevice}
    {ls : List (NodeLabel Id)} {c : NodeConfig Id} {key : String}
    (hRun : exec step (started restart file) ls = some c)
    (hMeets : Meets step LastLeaves (started restart file) ls) (hSettled : Settled key c) :
    ((c.shared.sessions key).isSome = true ↔
        ∃ task ∈ c.tasks, ∃ conn, task.wait.holds = some (key, conn)) ∧
      ∀ conn, c.shared.sessions key = some conn →
        ∃ task ∈ c.tasks, task.wait.holds = some (key, conn) := by
  have hInv : TableFollows c :=
    hMeets.invariant (fun _ _ _ hInv hLast hStep => tableFollows_step hInv hLast hStep) hRun
      (tableFollows_started restart file)
  have hOwned (conn : Connection Id) (hEntry : c.shared.sessions key = some conn) :
      ∃ task ∈ c.tasks, task.wait.holds = some (key, conn) := by
    obtain ⟨t, task, hTask, hOwner⟩ := hInv.entry key conn hEntry
    have hCalls := (hSettled (task, t) (List.mem_zipIdx_iff_getElem?.mpr hTask)).1
    rcases hOwner with hHeld | ⟨⟨call, hMem, hDrops⟩, _⟩
    · refine ⟨task, List.mem_of_getElem? hTask, ?_⟩
      unfold Task.registered at hHeld
      split at hHeld
      · cases hHeld
      · exact hHeld
    · rw [(hCalls call hMem).1] at hDrops
      cases hDrops
  refine ⟨⟨fun hPresent => ?_, ?_⟩, hOwned⟩
  · obtain ⟨conn, hEntry⟩ := Option.isSome_iff_exists.mp hPresent
    obtain ⟨task, hMem, hHolds⟩ := hOwned conn hEntry
    exact ⟨task, hMem, conn, hHolds⟩
  · rintro ⟨task, hMem, conn, hHolds⟩
    obtain ⟨t, hTask⟩ := List.mem_iff_getElem?.mp hMem
    obtain ⟨hCalls, hAlive⟩ := hSettled (task, t) (List.mem_zipIdx_iff_getElem?.mpr hTask)
    have hHead : task.todo.head?.bind Call.inserted = none := by
      by_contra hSome
      obtain ⟨held, hHeld⟩ := Option.ne_none_iff_exists'.mp hSome
      have hKey := (hInv.keeps t task hTask).first held hHeld
      rw [hHolds, Option.some.injEq] at hKey
      obtain ⟨call, hFirst, hInserted⟩ := Option.bind_eq_some_iff.mp hHeld
      refine (hCalls call (List.mem_of_head? hFirst)).2 ?_
      rw [hInserted, ← hKey]
      rfl
    refine hInv.present t task (key, conn) hTask ?_ (hAlive (by rw [hHolds]; rfl))
    rw [Task.registered, hHead]
    exact hHolds

section Devices

/-- Bob's second connection. -/
def secondFrom (remote : HexId) : Connection HexId := ⟨1, remote, [4, 5, 6], "t"⟩

/-- The supervisor has started the loop that dials Bob. -/
def dialing : List (NodeLabel HexId) := goes 0 2 ++ goes 1 1

/-- Bob's first connection is over before his second one comes. -/
def oneAfterAnother : List (NodeLabel HexId) :=
  dialing ++ [.call (.inbound (inboundFrom bob))] ++ goes 2 10 ++ [.turn 2 .closed] ++ goes 2 2 ++
    [.call (.inbound (secondFrom bob))] ++ goes 3 10

/-- Bob's first connection ends while his second one is open. -/
def oneInsideAnother : List (NodeLabel HexId) :=
  dialing ++ [.call (.inbound (inboundFrom bob)), .call (.inbound (secondFrom bob))] ++
    goes 2 10 ++ goes 3 10 ++ [.turn 2 .closed] ++ goes 2 2

theorem session_present_iff_connection_open_oneAfterAnother : ∃ c,
    exec step (started (.onIdentity (desktop alice)) [pairedRecord bob]) oneAfterAnother = some c ∧
      ((c.shared.sessions (toStr bob)).isSome = true ↔
          ∃ task ∈ c.tasks, ∃ conn, task.wait.holds = some (toStr bob, conn)) ∧
        ∀ conn, c.shared.sessions (toStr bob) = some conn →
          ∃ task ∈ c.tasks, task.wait.holds = some (toStr bob, conn) := by
  have hRuns : ∃ c,
      exec step (started (.onIdentity (desktop alice)) [pairedRecord bob]) oneAfterAnother = some c ∧
        Settled (toStr bob) c := by
    decide +kernel
  obtain ⟨c, hRun, hSettled⟩ := hRuns
  exact ⟨c, hRun, session_present_iff_connection_open hRun (by decide +kernel) hSettled⟩

/-- The end of the first connection takes the entry of the second. -/
theorem open_connection_without_session : ∃ c,
    exec step (started (.onIdentity (desktop alice)) [pairedRecord bob]) oneInsideAnother = some c ∧
      (∀ task ∈ c.tasks, task.todo = []) ∧ c.shared.aborted = [] ∧ Settled (toStr bob) c ∧
      (c.shared.sessions (toStr bob)).isSome = false ∧
      ∃ task ∈ c.tasks, task.wait.holds = some (toStr bob, secondFrom bob) := by
  decide +kernel

end Devices

end AltSendme
