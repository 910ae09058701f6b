import AltSendme.Native.IdentityRotation
import AltSendme.Native.TaskOrder

/-! Operations that change a file and the memory beside it, when the write of
the file fails. Each is run by itself, whatever else it meets. -/
namespace AltSendme
open Execution
open EndpointKeys (toStr fromStr)

/-- The memory of a node: what it says of itself, and the state its tasks share. -/
structure NodeMemory (Id : Type) where
  metaFile : DeviceMetaFile
  node : Node Id

/-- `set_display_name`. The name in memory is changed before the file is written. -/
def setDisplayName (here : Detected) (name : String) (write : FileWrite) (dir : DataDir)
    (m : DeviceMetaFile) : DeviceMetaFile × DataDir × Except StartError Unit :=
  match normalizeDisplayName name with
  | .error text => (m, dir, .error (.io text))
  | .ok normalized =>
      let m := { m with displayName := normalized, nameIsCustom := true }.migrate here
      let (dir, result) := writeMeta dir write m
      (m, dir, result)

section
variable {Id : Type} [DecidableEq Id] [EndpointKeys Id]

/-- A task makes the calls it has before it, one after another, and stands at
its next wait or has returned. `failed` says that a write of the paired-device
file was among them and failed. -/
inductive Performs : Node Id → Task Id → (failed : Prop) → Node Id → Task Id → Prop
  | done (n : Node Id) (wait : Wait Id) : Performs n ⟨[], wait⟩ False n ⟨[], wait⟩
  | call {n m n' : Node Id} {fresh : Nat} {call : Call Id} {rest : List (Call Id)}
      {wait : Wait Id} {input : Input} {task task' : Task Id} {spawned : List (Task Id)}
      {failed : Prop} (hExec : call.exec n fresh wait rest input = some (m, task, spawned))
      (hRest : Performs m task failed n' task') :
      Performs n ⟨call :: rest, wait⟩
        ((∃ op base cont, call = .storeWrite op base cont ∧ input = .fail) ∨ failed) n' task'

/-- Every turn a task takes at a call is one step of performing its calls. -/
theorem Performs.of_turn {n m n' : Node Id} {self fresh : Nat} {task task₁ task' : Task Id}
    {input : Input} {spawned : List (Task Id)} {failed : Prop}
    (hTurn : task.turn n self fresh input = some (m, task₁, spawned)) (hInput : input ≠ .cancelled)
    (hTodo : task.todo ≠ []) (hRest : Performs m task₁ failed n' task') :
    ∃ failed', (failed → failed') ∧ Performs n task failed' n' task' := by
  rcases Task.turn_eq_some hTurn with ⟨rfl, -⟩ | ⟨hNone, -⟩ | ⟨call, rest, hCalls, hExec⟩
  · exact absurd rfl hInput
  · exact absurd hNone hTodo
  · obtain ⟨todo, wait⟩ := task
    obtain rfl : todo = call :: rest := hCalls
    exact ⟨_, Or.inr, .call hExec hRest⟩

/-- The operations that change a file and the memory. A pairing is completed by
the host and joined by its guest. -/
inductive PersistedOp (Id : Type) where
  | setDisplayName (here : Detected) (name : String)
  | forgetPaired (endpointId : String)
  | completePairing (conn : Connection Id) (info : PairingInfo) (now : UInt64)
  | joinPairing (conn : Connection Id) (relayUrl : Option String) (info : PairingInfo)

namespace PersistedOp

/-- The calls of an operation on the paired devices. -/
def task (n : Node Id) : PersistedOp Id → Option (Task Id)
  | .setDisplayName _ _ => none
  | .forgetPaired endpointId => some (Command.start (.forgetPaired endpointId))
  | .completePairing conn info now => some (pairingCompleted conn info now n.homeRelayUrl)
  | .joinPairing conn relayUrl info => some (onHostInfo conn relayUrl (.pairingInfo info))

/-- The operation ran, and its write failed. -/
inductive FailsTo : PersistedOp Id → NodeMemory Id → NodeMemory Id → Prop where
  | named {here : Detected} {name normalized : String} {dir : DataDir} {s : NodeMemory Id}
      (hName : normalizeDisplayName name = .ok normalized) :
      FailsTo (.setDisplayName here name) s
        ⟨(AltSendme.setDisplayName here name .failed dir s.metaFile).1, s.node⟩
  | paired {op : PersistedOp Id} {s : NodeMemory Id} {task task' : Task Id} {node' : Node Id}
      {failed : Prop} (hTask : op.task s.node = some task)
      (hPerforms : Performs s.node task failed node' task') (hFailed : failed) :
      FailsTo op s ⟨s.metaFile, node'⟩

/-- What the operation does to the memory before or despite the failure is no change. -/
def KeepsMemory (s : NodeMemory Id) : PersistedOp Id → Prop
  | .setDisplayName _ name => normalizeDisplayName name = .ok s.metaFile.displayName
  | .forgetPaired endpointId =>
      ∀ id, (fromStr endpointId : Option Id) = some id → id ∉ s.node.access.allowed
  | .completePairing conn _ _ => conn.remote ∈ s.node.access.allowed
  | .joinPairing _ _ _ => True

end PersistedOp

namespace Call

/-- The calls that follow a write of the file in these operations. -/
def followsWrite : Call Id → Bool
  | .allowPeer _ | .refresh | .refreshTasks _ | .emit _ | .send _ false | .closeUnlessPersistent
  | .setAccessOpen _ | .removeConnectTask _ | .removeSession _ | .setPresence _ _ => true
  | _ => false

/-- What a call does to the allowlist. -/
def allowing (allowed : Finset Id) : Call Id → Finset Id
  | .allowPeer remote => insert remote allowed
  | .disallow remote => allowed.erase remote
  | _ => allowed

variable {n n' : Node Id} {fresh : Nat} {wait : Wait Id} {rest : List (Call Id)} {input : Input}
  {task' : Task Id} {spawned : List (Task Id)}

omit [DecidableEq Id] [EndpointKeys Id] in
theorem mayStop_of_followsWrite {call : Call Id} (h : call.followsWrite = true) :
    call.mayStop = false := by
  cases call with
  | send message must =>
      cases must with
      | false => rfl
      | true => cases h
  | _ => first | rfl | cases h

/-- Such a call does to the allowlist what it says, and is followed by more of them. -/
theorem exec_followsWrite {call : Call Id} (hFollows : call.followsWrite = true)
    (h : call.exec n fresh wait rest input = some (n', task', spawned)) :
    n'.access.allowed = call.allowing n.access.allowed ∧
      ∃ pushed : List (Call Id), task'.todo = pushed ++ rest ∧
        ∀ c ∈ pushed, c.followsWrite = true ∧ ∀ allowed, c.allowing allowed = allowed := by
  refine ⟨?_, ?_⟩
  · rcases (exec_changes h).access with hSame | ⟨remote, rfl, rfl⟩ | ⟨_, rfl, _⟩ | ⟨_, rfl, rfl⟩
    · cases call with
      | allowPeer remote =>
          cases input <;> simp only [exec, reduceCtorEq] at h
          cases h
          rfl
      | disallow remote => cases hFollows
      | _ => exact congrArg AccessState.allowed hSame
    · rfl
    · cases hFollows
    · rfl
  · cases exec_moves h with
    | onward => exact ⟨[], rfl, by simp⟩
    | stopped _ _ hStop =>
        rw [mayStop_of_followsWrite hFollows] at hStop
        cases hStop
    | closing => exact ⟨[.setAccessOpen false], rfl, by simp [followsWrite, allowing]⟩
    | sessionRemoved key =>
        exact ⟨[.setPresence key .sessionRemoved], rfl, by simp [followsWrite, allowing]⟩
    | refreshing => exact ⟨[.refreshTasks _], rfl, by simp [followsWrite, allowing]⟩
    | _ => cases hFollows

end Call

/-- After the write an operation writes no more, and the allowlist is what its
remaining calls make of it. -/
theorem Performs.followsWrite {n n' : Node Id} {task task' : Task Id} {failed : Prop}
    (h : Performs n task failed n' task')
    (hFollows : ∀ call ∈ task.todo, call.followsWrite = true) :
    ¬failed ∧ n'.access.allowed = task.todo.foldl Call.allowing n.access.allowed := by
  induction h with
  | done n wait => exact ⟨not_false, rfl⟩
  | @call n m n' fresh call rest wait input task task' spawned failed hExec hRest ih =>
      obtain ⟨hCall, hAfter⟩ := List.forall_mem_cons.mp hFollows
      obtain ⟨hAllowed, pushed, hTodo, hPushed⟩ := Call.exec_followsWrite hCall hExec
      have hNext : ∀ c ∈ task.todo, c.followsWrite = true := by
        rw [hTodo]
        intro c hc
        rcases List.mem_append.mp hc with hNew | hOld
        · exact (hPushed c hNew).1
        · exact hAfter c hOld
      have hSame : pushed.foldl Call.allowing m.access.allowed = m.access.allowed := by
        clear hTodo hNext
        induction pushed with
        | nil => rfl
        | cons c pushed ihPushed =>
            obtain ⟨hFirst, hMore⟩ := List.forall_mem_cons.mp hPushed
            rw [List.foldl_cons, hFirst.2]
            exact ihPushed hMore
      obtain ⟨hNot, hFinal⟩ := ih hNext
      refine ⟨?_, ?_⟩
      · rintro (⟨op, base, cont, rfl, -⟩ | hFailed)
        · cases hCall
        · exact hNot hFailed
      · rw [hFinal, hTodo, List.foldl_append, hSame, hAllowed, List.foldl_cons]

theorem Performs.returned {n n' : Node Id} {ok : Bool} {task' : Task Id}
    {failed : Prop} (h : Performs n (Task.returned ok) failed n' task') :
    ¬failed ∧ n' = n := by
  cases h
  exact ⟨not_false, rfl⟩

omit [DecidableEq Id] in
/-- A store call whose caller ignores errors or passes them on. -/
theorem StoreCont.resume_followsWrite {cont : StoreCont Id} {rest : List (Call Id)}
    {wait : Wait Id} (hCont : cont = .ignore ∨ cont = .propagate)
    (hFollows : ∀ call ∈ rest, call.followsWrite = true)
    (reply : Except String (Option PairedDevice)) :
    ∀ call ∈ (cont.resume rest wait reply).todo, call.followsWrite = true := by
  rcases hCont with rfl | rfl
  · exact hFollows
  · cases reply with
    | ok device => exact hFollows
    | error e => nofun

/-- A store call whose write failed: what its caller still does. -/
theorem Performs.store {n n' : Node Id} {op : StoreOp} {cont : StoreCont Id}
    {rest : List (Call Id)} {wait : Wait Id} {task' : Task Id} {failed : Prop}
    (h : Performs n ⟨.store op cont :: rest, wait⟩ failed n' task') (hFailed : failed)
    (hCont : cont = .ignore ∨ cont = .propagate)
    (hFollows : ∀ call ∈ rest, call.followsWrite = true) :
    ∃ failed', Performs n (cont.resume rest wait (.error "write")) failed' n' task' := by
  cases h with
  | @call n m n' fresh call rest wait input task task' spawned failed hExec hRest =>
      obtain ⟨rfl, ⟨list, -, rfl⟩ | ⟨reply, -, rfl⟩⟩ := Call.exec_store hExec
      · cases hRest with
        | @call n m' n' fresh call rest wait input task task' spawned failed hWrite hAfter =>
            by_cases hInput : input = .fail
            · subst hInput
              cases hWrite
              exact ⟨_, hAfter⟩
            · obtain ⟨-, rfl⟩ := Call.exec_storeWrite hInput hWrite
              rcases hFailed with ⟨_, _, _, h, _⟩ | ⟨_, _, _, -, hFail⟩ | hLater
              · cases h
              · exact absurd hFail hInput
              · exact absurd hLater
                  (hAfter.followsWrite (StoreCont.resume_followsWrite hCont hFollows _)).1
      · rcases hFailed with ⟨_, _, _, h, _⟩ | hLater
        · cases h
        · exact absurd hLater
            (hRest.followsWrite (StoreCont.resume_followsWrite hCont hFollows _)).1

theorem Performs.getDevice {n n' : Node Id} {endpointId : String}
    {rest : List (Call Id)} {wait : Wait Id} {task' : Task Id} {failed : Prop}
    (h : Performs n ⟨.getDevice endpointId :: rest, wait⟩ failed n' task')
    (hFailed : failed) : ∃ failed', failed' ∧ Performs n ⟨rest, wait⟩ failed' n' task' := by
  cases h with
  | @call n m n' fresh call rest wait input task task' spawned failed hExec hRest =>
      rcases hFailed with ⟨_, _, _, h, _⟩ | hLater
      · cases h
      · cases input <;> simp only [Call.exec, reduceCtorEq] at hExec
        case go now =>
          cases hExec
          exact ⟨_, hLater, hRest⟩
        case fail =>
          cases hExec
          exact absurd hLater hRest.returned.1

theorem Performs.disallow {n n' : Node Id} {remote : Id} {rest : List (Call Id)}
    {wait : Wait Id} {task' : Task Id} {failed : Prop}
    (h : Performs n ⟨.disallow remote :: rest, wait⟩ failed n' task') (hFailed : failed) :
    ∃ failed', failed' ∧ Performs (n.disallow remote) ⟨rest, wait⟩ failed' n' task' := by
  cases h with
  | @call n m n' fresh call rest wait input task task' spawned failed hExec hRest =>
      rcases hFailed with ⟨_, _, _, h, _⟩ | hLater
      · cases h
      · cases input <;> simp only [Call.exec, reduceCtorEq] at hExec
        cases hExec
        exact ⟨_, hLater, hRest⟩

/-- The peer is taken off the allowlist before the file is written. -/
theorem Performs.forgetPaired {n n' : Node Id} {endpointId : String}
    {task' : Task Id} {failed : Prop}
    (h : Performs n (Command.start (.forgetPaired endpointId)) failed n' task')
    (hFailed : failed) :
    n'.access.allowed =
      ((fromStr endpointId : Option Id).elim n.access.allowed n.access.allowed.erase) := by
  have hFollows : ∀ call ∈ (managerForget endpointId ++ [.setPresence endpointId .forgotten,
      .emit (.deviceUnpaired endpointId none "local")] : List (Call Id)),
      call.followsWrite = true := by
    simp [managerForget, Call.followsWrite]
  simp only [Command.start, AltSendme.forgetPaired, List.append_assoc, List.cons_append,
    List.nil_append] at h
  obtain ⟨failed, hFailed, h⟩ := h.getDevice hFailed
  cases hId : (fromStr endpointId : Option Id) with
  | none =>
      rw [hId] at h
      obtain ⟨_, hEnd⟩ := h.store hFailed (.inr rfl) hFollows
      rw [hEnd.returned.2]
      rfl
  | some id =>
      rw [hId] at h
      obtain ⟨failed, hFailed, h⟩ := h.disallow hFailed
      obtain ⟨_, hEnd⟩ := h.store hFailed (.inr rfl) hFollows
      rw [hEnd.returned.2]
      rfl

/-- The host lets the peer in whether or not the file was written. -/
theorem Performs.completePairing {n n' : Node Id} {conn : Connection Id}
    {info : PairingInfo} {now : UInt64} {homeRelayUrl : Option String} {task' : Task Id}
    {failed : Prop}
    (h : Performs n (pairingCompleted conn info now homeRelayUrl) failed n' task')
    (hFailed : failed) : n'.access.allowed = insert conn.remote n.access.allowed := by
  have hFollows : ∀ call ∈ ([.allowPeer conn.remote, .refresh, .emit .devicePaired,
      .send (rememberVote conn) false, .closeUnlessPersistent] : List (Call Id)),
      call.followsWrite = true := by
    simp [Call.followsWrite]
  obtain ⟨_, hAfter⟩ := h.store hFailed (.inl rfl) hFollows
  rw [(hAfter.followsWrite hFollows).2]
  rfl

/-- The guest returns with the error. -/
theorem Performs.joinPairing {n n' : Node Id} {conn : Connection Id}
    {relayUrl : Option String} {info : PairingInfo} {task' : Task Id} {failed : Prop}
    (h : Performs n (onHostInfo conn relayUrl (.pairingInfo info)) failed n' task')
    (hFailed : failed) : n' = n := by
  rw [onHostInfo] at h
  cases hPeer : (acceptedPeer conn.keying info : Option Id) with
  | none =>
      rw [hPeer] at h
      exact h.returned.2
  | some peer =>
      rw [hPeer] at h
      dsimp only at h
      cases h with
      | @call n m n' fresh call rest wait input task task' spawned failed hExec hRest =>
          rcases hFailed with ⟨_, _, _, h, _⟩ | hLater
          · cases h
          · cases input <;> simp only [Call.exec, reduceCtorEq] at hExec
            cases hExec
            obtain ⟨_, hEnd⟩ := hRest.store hLater (.inr rfl) (by simp [Call.followsWrite])
            exact hEnd.returned.2

theorem setDisplayName_displayName {here : Detected} {name normalized : String} {write : FileWrite}
    {dir : DataDir} {m : DeviceMetaFile} (h : normalizeDisplayName name = .ok normalized) :
    (setDisplayName here name write dir m).1.displayName = normalized := by
  rw [setDisplayName, h]
  rfl

/-- After a failed write the display name and the allowlist are what they were
exactly when the operation would not have changed them in memory either, or is
the joining of a pairing. -/
theorem failed_write_keeps_memory_iff {op : PersistedOp Id} {s s' : NodeMemory Id}
    (h : op.FailsTo s s') :
    (s'.metaFile.displayName = s.metaFile.displayName ∧
        s'.node.access.allowed = s.node.access.allowed) ↔ op.KeepsMemory s := by
  cases h with
  | named hName =>
      rw [setDisplayName_displayName hName, PersistedOp.KeepsMemory, hName, Except.ok.injEq]
      exact and_iff_left rfl
  | paired hTask hPerforms hFailed =>
      rw [eq_self, true_and]
      cases op with
      | setDisplayName here name => cases hTask
      | forgetPaired endpointId =>
          cases hTask
          rw [hPerforms.forgetPaired hFailed, PersistedOp.KeepsMemory]
          cases hId : (fromStr endpointId : Option Id) with
          | none => simp
          | some id => simp [Finset.erase_eq_self]
      | completePairing conn info now =>
          cases hTask
          rw [hPerforms.completePairing hFailed, PersistedOp.KeepsMemory]
          exact Finset.insert_eq_self
      | joinPairing conn relayUrl info =>
          cases hTask
          rw [hPerforms.joinPairing hFailed, PersistedOp.KeepsMemory]
          simp

end

section
variable {n m n' : Node HexId} {call : Call HexId} {rest : List (Call HexId)} {wait : Wait HexId}
  {task task' : Task HexId} {spawned : List (Task HexId)} {failed : Prop}

private theorem performs_go (hExec : call.exec n 0 wait rest (.go 0) = some (m, task, spawned))
    (hRest : Performs m task failed n' task') : Performs n ⟨call :: rest, wait⟩
      ((∃ op base cont, call = .storeWrite op base cont ∧ Input.go 0 = .fail) ∨ failed) n' task' :=
  .call hExec hRest

private theorem performs_fail (hExec : call.exec n 0 wait rest .fail = some (m, task, spawned))
    (hRest : Performs m task failed n' task') : Performs n ⟨call :: rest, wait⟩
      ((∃ op base cont, call = .storeWrite op base cont ∧ Input.fail = .fail) ∨ failed) n' task' :=
  .call hExec hRest

private def deskMemory : NodeMemory HexId where
  metaFile := ⟨2, alice.text, "Desk", "desktop", "linux", 0, true⟩
  node := (Restart.onIdentity (desktop alice)).node []

private def thisDesk : Detected := ⟨"linux", "Desk", "desktop", 0⟩

private def emptyDir : DataDir := ⟨⟨true, none, fun _ => rfl⟩, .missing, .missing⟩

private def phoneInfo : PairingInfo := ⟨bob.text, "Phone", "phone", "android", "sig"⟩

/-- The same name again, and a name that replaces it. -/
theorem failed_write_keeps_memory_iff_named : ∃ kept lost : NodeMemory HexId,
    (PersistedOp.setDisplayName thisDesk " Desk ").FailsTo deskMemory kept ∧
      kept.metaFile.displayName = deskMemory.metaFile.displayName ∧
      (PersistedOp.setDisplayName thisDesk "Phone").FailsTo deskMemory lost ∧
      ¬(lost.metaFile.displayName = deskMemory.metaFile.displayName ∧
        lost.node.access.allowed = deskMemory.node.access.allowed) := by
  have hSame : normalizeDisplayName " Desk " = .ok "Desk" := by decide
  have hOther : normalizeDisplayName "Phone" = .ok "Phone" := by decide
  have hKept : (PersistedOp.setDisplayName thisDesk " Desk ").FailsTo deskMemory _ :=
    @PersistedOp.FailsTo.named HexId _ _ _ _ _ emptyDir _ hSame
  have hLost : (PersistedOp.setDisplayName thisDesk "Phone").FailsTo deskMemory _ :=
    @PersistedOp.FailsTo.named HexId _ _ _ _ _ emptyDir _ hOther
  refine ⟨_, _, hKept, ((failed_write_keeps_memory_iff hKept).mpr hSame).1, hLost, ?_⟩
  rw [failed_write_keeps_memory_iff hLost, PersistedOp.KeepsMemory, hOther]
  decide

/-- The file of the paired devices is not written, and the peer is let in. -/
theorem peer_allowed_despite_failed_write : ∃ s' : NodeMemory HexId,
    (PersistedOp.completePairing (inboundFrom bob) phoneInfo 0).FailsTo deskMemory s' ∧
      bob ∉ deskMemory.node.access.allowed ∧ bob ∈ s'.node.access.allowed ∧
      s'.node.file = [] := by
  refine ⟨_, .paired rfl (performs_go rfl (performs_fail rfl (performs_go rfl (performs_fail rfl
    (performs_go rfl (performs_go rfl (performs_go rfl (performs_go rfl (.done _ _)))))))))
    (.inr (.inl ⟨_, _, _, rfl, rfl⟩)), ?_, ?_, ?_⟩
  · decide
  · decide
  · rfl

end

end AltSendme
