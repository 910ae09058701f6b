import AltSendme.Native.TaskOrder

/-! The allowlist against the store. Pairing writes a record before it allows
the peer, a received `Forget` marks the record before it revokes, and
`forget_paired` revokes before it removes the record. Between its two halves an
operation answers for its own device, and the two agree on every other one. -/
namespace AltSendme

variable {Id : Type} [EndpointKeys Id]
open EndpointKeys (toStr fromStr)
open Execution (exec Meets)
open PairedDeviceStore (connectableAt Kept)

/-- The device whose record is kept under this text, as the store compares ids. -/
def recordedId (text : String) : Option Id :=
  (fromStr text.toLowercase).filter fun id => toStr id = text.toLowercase

theorem recordedId_eq_some {text : String} {id : Id} :
    recordedId text = some id ↔ text.toLowercase = toStr id := by
  rw [recordedId, Option.filter_eq_some_iff]
  constructor
  · rintro ⟨_, hText⟩
    exact (of_decide_eq_true hText).symm
  · intro hText
    rw [hText, fromStr_toStr]
    exact ⟨rfl, decide_eq_true rfl⟩

/-- The device whose record a call of the store removes. -/
def StoreOp.removes : StoreOp → Option Id
  | .forget endpointId => recordedId endpointId
  | _ => none

/-- The device for which this task has changed the record or the allowlist and
not yet the other: it remembered, marked or disallowed it. -/
def Task.halfway (task : Task Id) : Option Id :=
  match task.todo with
  | .allowPeer remote :: _ => some remote
  | .disallow remote :: .setPresence _ _ :: _ => some remote
  | .store op _ :: _ | .storeWrite op _ _ :: _ => op.removes
  | _ => none

/-- No operation is half done. -/
def NoneHalfway (c : NodeConfig Id) : Prop := ∀ task ∈ c.tasks, task.halfway = none

instance [DecidableEq Id] (c : NodeConfig Id) : Decidable (NoneHalfway c) := List.decidableBAll _ _

/-- The device is allowed exactly when its record is connectable. -/
def Node.Agrees (n : Node Id) (id : Id) : Prop :=
  id ∈ n.access.allowed ↔ connectableAt n.file (toStr id) = true

/-- The second half of an operation finds its first half as it left it, and a
write rests on a list that is still current. Nothing is asked for a device on
which another operation is half done (`busy`). -/
def FirstHalfStands [DecidableEq Id] (n : Node Id) (busy : Id → Prop) : List (Call Id) → Prop
  | .allowPeer remote :: _ => busy remote ∨ connectableAt n.file (toStr remote) = true
  | .disallow remote :: .setPresence _ _ :: _ =>
      busy remote ∨ connectableAt n.file (toStr remote) = false
  | .disallow remote :: .store (.forget endpointId) _ :: _ =>
      busy remote ∨ endpointId.toLowercase = toStr remote ∨
        connectableAt n.file (toStr remote) = false
  | .storeWrite op base _ :: _ =>
      (∀ d ∈ base ++ n.file, (∃ id ∈ (recordedId d.endpointId : Option Id), busy id) ∨
        op.CurrentFor base n.file d.endpointId) ∧
        ∀ remote ∈ (op.removes : Option Id), busy remote ∨ remote ∉ n.access.allowed
  | _ => True

/-- A task other than `t` has an operation on the device half done. -/
def OtherHalfway (c : NodeConfig Id) (t : Nat) (id : Id) : Prop :=
  ∃ other ∈ c.tasks.eraseIdx t, other.halfway = some id

/-- No step undoes the first half of an operation before its second half. -/
def HalvesStand [DecidableEq Id] (c : NodeConfig Id) : NodeLabel Id → Prop
  | .turn t _ => ∀ task ∈ c.tasks[t]?, FirstHalfStands c.shared (OtherHalfway c t) task.todo
  | _ => True

variable [DecidableEq Id]

section Calls
variable {n n' : Node Id} {self fresh : Nat} {wait : Wait Id} {rest : List (Call Id)}
  {input : Input} {task task' : Task Id} {spawned : List (Task Id)}

/-- Calls that read or write the store, or write the allowlist. -/
def Call.keepsBooks : Call Id → Bool
  | .allowPeer _ | .disallow _ | .store _ _ | .storeWrite _ _ _ => false
  | _ => true

/-- A call that keeps the books changes neither list nor file. -/
theorem Call.Changes.books {call : Call Id} (h : call.Changes n fresh n')
    (hCall : call.keepsBooks = true) :
    n'.access.allowed = n.access.allowed ∧ n'.file = n.file := by
  cases h with
  | presence endpointId writer =>
      exact ⟨by rw [n.setPresence_access], n.setPresence_file endpointId writer.online⟩
  | fileWritten | allowed | disallowed => cases hCall
  | _ => exact ⟨rfl, rfl⟩

omit [DecidableEq Id] in
theorem Task.halfway_of_keepsBooks {call : Call Id} (hCall : call.keepsBooks = true) :
    (⟨call :: rest, wait⟩ : Task Id).halfway = none := by
  cases call <;> first | rfl | cases hCall

omit [DecidableEq Id] in
theorem Node.Agrees.congr {id : Id} (h : n.Agrees id)
    (hAllowed : id ∈ n'.access.allowed ↔ id ∈ n.access.allowed)
    (hFile : connectableAt n'.file (toStr id) = connectableAt n.file (toStr id)) :
    n'.Agrees id := by
  rw [Agrees, hAllowed, hFile]
  exact h

/-- The second half of a pairing. -/
theorem Node.agrees_allowPeer {remote id : Id}
    (hStands : remote = id → connectableAt n.file (toStr remote) = true)
    (h : remote = id ∨ n.Agrees id) : (n.allowPeer remote).Agrees id := by
  by_cases hOwn : remote = id
  · rw [← hOwn]
    exact iff_of_true (Finset.mem_insert_self remote _) (hStands hOwn)
  · have hAgrees : n.Agrees id := h.resolve_left hOwn
    exact hAgrees.congr (Finset.mem_insert.trans (or_iff_right (Ne.symm hOwn))) rfl

/-- The second half of a received `Forget`. -/
theorem Node.agrees_disallow {remote id : Id}
    (hStands : remote = id → connectableAt n.file (toStr remote) = false)
    (h : remote = id ∨ n.Agrees id) : (n.disallow remote).Agrees id := by
  by_cases hOwn : remote = id
  · rw [← hOwn]
    refine iff_of_false (Finset.notMem_erase remote _) ?_
    rw [Bool.not_eq_true]
    exact hStands hOwn
  · have hAgrees : n.Agrees id := h.resolve_left hOwn
    exact hAgrees.congr (Finset.mem_erase.trans (and_iff_right (Ne.symm hOwn))) rfl

omit [DecidableEq Id] in
/-- A write leaves the agreement on the devices it does not decide. -/
theorem Node.Agrees.storeWrite {op : StoreOp} {base : List PairedDevice} {id : Id}
    (h : n.Agrees id) (hCurrent : op.CurrentFor base n.file (toStr id))
    (hOther : op.decides = true → toStr id ≠ op.endpointId.toLowercase) :
    ({ n with file := op.apply String.toLowercase base } : Node Id).Agrees id := by
  refine h.congr Iff.rfl (hCurrent.apply fun hDecides => ?_)
  rw [toStr_toLowercase]
  exact hOther hDecides

/-- A write: the device it decides is now half done, or settled by a removal. -/
theorem settled_storeWrite {op : StoreOp} {base : List PairedDevice} {cont : StoreCont Id} {id : Id}
    {busy : Id → Prop} (hFree : ¬ busy id) (hFits : (Call.storeWrite op base cont).Fits rest)
    (hStands : FirstHalfStands n busy (.storeWrite op base cont :: rest))
    (h : (⟨.storeWrite op base cont :: rest, wait⟩ : Task Id).halfway = some id ∨ n.Agrees id) :
    (cont.resume rest wait (op.run String.toLowercase base).reply).halfway = some id ∨
      ({ n with file := op.apply String.toLowercase base } : Node Id).Agrees id := by
  obtain ⟨hRecords, hRevoked⟩ := hStands
  have hCurrent : op.CurrentFor base n.file (toStr id) := by
    refine StoreOp.currentFor_of_records fun d hd hSame => ?_
    refine (hRecords d hd).resolve_left ?_
    rintro ⟨owner, hOwner, hBusy⟩
    rw [Option.mem_def, recordedId_eq_some, hSame, toStr_toLowercase, toStr_inj] at hOwner
    exact hFree (hOwner ▸ hBusy)
  cases hFits with
  | free _ _ hPlain => cases hPlain
  | write _ _ list _ _ hOp _ hWritten =>
      cases hOp with
      | remember device remote _ rest hDevice hCont =>
          have hAgrees : n.Agrees id := h.resolve_left (fun hHalf => by cases hHalf)
          by_cases hOwn : remote = id
          · subst hOwn
            cases cont with
            | unpaired r paired => exact absurd rfl (hCont r paired)
            | ignore | propagate => exact Or.inl rfl
          · refine Or.inr (hAgrees.storeWrite hCurrent fun _ hSame => hOwn ?_)
            change toStr id = device.endpointId.toLowercase at hSame
            rw [hDevice, toStr_toLowercase, toStr_inj] at hSame
            exact hSame.symm
      | mark remote paired =>
          have hAgrees : n.Agrees id := h.resolve_left (fun hHalf => by cases hHalf)
          by_cases hOwn : remote = id
          · subst hOwn
            cases hGet : PairedDeviceStore.get String.toLowercase base (toStr remote) with
            | none => simp [StoreOp.run, hGet] at hWritten
            | some d =>
                simp only [StoreOp.run, hGet]
                exact Or.inl rfl
          · refine Or.inr (hAgrees.storeWrite hCurrent fun _ hSame => hOwn ?_)
            change toStr id = (toStr remote).toLowercase at hSame
            rw [toStr_toLowercase, toStr_inj] at hSame
            exact hSame.symm
      | forget endpointId =>
          by_cases hOwn : recordedId endpointId = some id
          · have hGone := (hRevoked id hOwn).resolve_left hFree
            rw [recordedId_eq_some] at hOwn
            refine Or.inr (iff_of_false hGone ?_)
            rw [Bool.not_eq_true]
            refine StoreOp.connectableAt_forget ?_ base
            rw [toStr_toLowercase, hOwn]
          · have hAgrees : n.Agrees id := h.resolve_left hOwn
            refine Or.inr (hAgrees.storeWrite hCurrent fun _ hSame => hOwn ?_)
            exact recordedId_eq_some.mpr hSame.symm
      | other _ _ _ hPlain =>
          have hNone : (⟨.storeWrite op base cont :: rest, wait⟩ : Task Id).halfway = none := by
            cases op <;> first | rfl | cases hPlain
          have hAgrees : n.Agrees id := h.resolve_left (by rw [hNone]; simp)
          refine Or.inr (hAgrees.storeWrite hCurrent fun hDecides => ?_)
          rw [hPlain] at hDecides
          cases hDecides

/-- One call keeps every device settled on which no other operation is half
done: in step, or this task's own to finish. -/
theorem settled_exec {call : Call Id} {id : Id} {busy : Id → Prop} (hFree : ¬ busy id)
    (hFits : call.Fits rest) (hHonest : (⟨call :: rest, wait⟩ : Task Id).Honest input)
    (hStands : FirstHalfStands n busy (call :: rest))
    (hExec : call.exec n fresh wait rest input = some (n', task', spawned))
    (h : (⟨call :: rest, wait⟩ : Task Id).halfway = some id ∨ n.Agrees id) :
    task'.halfway = some id ∨ n'.Agrees id := by
  cases hCall : call.keepsBooks with
  | true =>
      have hAgrees : n.Agrees id := h.resolve_left (by
        rw [Task.halfway_of_keepsBooks hCall]
        nofun)
      obtain ⟨hAllowed, hFile⟩ := (Call.exec_changes hExec).books hCall
      exact Or.inr (hAgrees.congr (by rw [hAllowed]) (by rw [hFile]))
  | false =>
      cases call with
      | allowPeer remote =>
          cases input <;> cases hExec
          refine Or.inr (Node.agrees_allowPeer (fun hOwn => ?_) (h.imp_left Option.some.inj))
          exact hStands.resolve_left (hOwn ▸ hFree)
      | disallow remote =>
          cases input <;> cases hExec
          cases hFits with
          | unpairing _ endpointId online rest =>
              refine Or.inr (Node.agrees_disallow (fun hOwn => ?_) (h.imp_left Option.some.inj))
              exact hStands.resolve_left (hOwn ▸ hFree)
          | forgetting _ endpointId cont rest =>
              have hAgrees : n.Agrees id := h.resolve_left nofun
              by_cases hOwn : remote = id
              · subst hOwn
                rcases hStands.resolve_left hFree with hText | hGone
                · exact Or.inl (recordedId_eq_some.mpr hText)
                · exact Or.inr (Node.agrees_disallow (fun _ => hGone) (Or.inr hAgrees))
              · exact Or.inr (Node.agrees_disallow (absurd · hOwn) (Or.inr hAgrees))
          | free _ _ hPlain => cases hPlain
      | store op cont =>
          obtain ⟨rfl, hNext⟩ := Call.exec_store hExec
          rcases h with hHalf | hAgrees
          · -- only a removal is half done before it reads
            cases op with
            | forget endpointId =>
                rcases hNext with ⟨list, _, rfl⟩ | ⟨_, hNone | hFail, _⟩
                · exact Or.inl hHalf
                · cases hNone
                · subst hFail
                  exact hHonest.elim
            | _ => cases hHalf
          · exact Or.inr hAgrees
      | storeWrite op base cont =>
          have hInput : input ≠ .fail := by
            rintro rfl
            exact hHonest
          obtain ⟨rfl, rfl⟩ := Call.exec_storeWrite hInput hExec
          exact settled_storeWrite hFree hFits hStands h
      | _ => cases hCall

/-- An abort takes effect at an `await`, and no operation awaits half done. -/
theorem Task.atAwait_of_cancelled {result : Node Id × Task Id × List (Task Id)}
    (h : task.turn n self fresh .cancelled = some result) : task.atAwait = true := by
  rw [Task.turn, if_pos rfl] at h
  split at h
  · next hAborted =>
      rw [Bool.and_eq_true] at hAborted
      exact hAborted.2
  · cases h

omit [DecidableEq Id] in
theorem Task.halfway_of_atAwait (h : task.atAwait = true) : task.halfway = none := by
  obtain ⟨todo, wait⟩ := task
  cases todo with
  | nil => rfl
  | cons call rest => cases call <;> first | rfl | cases h

/-- Where nobody else is half way, one turn of a task leaves list and file in agreement. -/
theorem settled_turn {id : Id} {busy : Id → Prop} (hFree : ¬ busy id) (hTask : task.InOrder)
    (hHonest : task.Honest input) (hStands : FirstHalfStands n busy task.todo)
    (hTurn : task.turn n self fresh input = some (n', task', spawned))
    (h : task.halfway = some id ∨ n.Agrees id) : task'.halfway = some id ∨ n'.Agrees id := by
  rcases Task.turn_eq_some hTurn with ⟨rfl, _, rfl, rfl, _⟩ | ⟨hTodo, rfl, _, _⟩ |
    ⟨call, rest, hTodo, hExec⟩
  · rw [Task.halfway_of_atAwait (Task.atAwait_of_cancelled hTurn)] at h
    exact Or.inr (h.resolve_left nofun)
  · obtain ⟨todo, wait⟩ := task
    obtain rfl : todo = [] := hTodo
    exact Or.inr (h.resolve_left nofun)
  · obtain ⟨todo, wait⟩ := task
    obtain rfl : todo = call :: rest := hTodo
    exact settled_exec hFree hTask.calls.1 hHonest hStands hExec h

end Calls

/-- A start allows what the store it finds says, whether or not it then marks
the records stale. -/
theorem Restart.agrees (restart : Restart Id) {file : List PairedDevice} (hFile : Kept Id file)
    (id : Id) : (restart.node file).Agrees id := by
  refine hFile.mem_loadAllowedFromStore.trans ?_
  simp only [Restart.node]
  split
  · rw [PairedDeviceStore.connectableAt_markStale]
  · rfl

/-- A restart keeps the records in order. -/
theorem Restart.kept (restart : Restart Id) {file : List PairedDevice} (hFile : Kept Id file) :
    Kept Id (restart.node file).file := by
  simp only [Restart.node]
  split
  · exact hFile.markStale
  · exact hFile

/-- Every device is in step, or some operation on it is half done. -/
structure BooksKept (c : NodeConfig Id) : Prop where
  file : Kept Id c.shared.file
  order : c.All fun _ task => task.InOrder
  settled : ∀ id, (∃ task ∈ c.tasks, task.halfway = some id) ∨ c.shared.Agrees id

/-- A start reads the list off the file. -/
theorem booksKept_started (restart : Restart Id) {file : List PairedDevice}
    (hFile : Kept Id file) : BooksKept (started restart file) where
  file := restart.kept hFile
  order := fun _ _ hNew => (started_new hNew).inOrder
  settled := fun id => Or.inr (restart.agrees hFile id)

/-- One turn in which the first halves stand keeps the books. -/
theorem BooksKept.turn {c d : NodeConfig Id} {t : Nat} {input : Input} (h : BooksKept c)
    (hHonest : HonestStep c (.turn t input)) (hStand : HalvesStand c (.turn t input))
    (hOrder : d.All fun _ task => task.InOrder) (hStep : step c (.turn t input) = some d) :
    BooksKept d := by
  obtain ⟨task, n', task', spawned, hTask, hTurn, rfl⟩ :=
    (Execution.Pool.next_turn_eq_some _).mp hStep
  have hIn := h.order t task hTask
  have hPlace : t < c.tasks.length := (List.getElem?_eq_some_iff.mp hTask).1
  refine ⟨hIn.kept_of_turn h.file hTurn, hOrder, fun id => ?_⟩
  by_cases hBusy : OtherHalfway c t id
  · obtain ⟨other, hMem, hHalf⟩ := hBusy
    obtain ⟨u, hne, hu⟩ := List.mem_eraseIdx_iff_getElem?.mp hMem
    have hKept : (c.tasks.set t task' ++ spawned)[u]? = some other :=
      Execution.Pool.getElem?_turn_other hne hu
    exact Or.inl ⟨other, List.mem_of_getElem? hKept, hHalf⟩
  · have hNow : task.halfway = some id ∨ c.shared.Agrees id := by
      refine (h.settled id).imp_left ?_
      rintro ⟨other, hMem, hHalf⟩
      obtain ⟨u, hu⟩ := List.mem_iff_getElem?.mp hMem
      obtain rfl : u = t := by
        by_contra hne
        exact hBusy ⟨other, List.mem_eraseIdx_iff_getElem?.mpr ⟨u, hne, hu⟩, hHalf⟩
      rwa [Option.some.inj (hTask.symm.trans hu)]
    rcases settled_turn hBusy hIn (hHonest task hTask) (hStand task hTask) hTurn hNow with
      hHalf | hAgrees
    · exact Or.inl ⟨task', List.mem_append_left _ (List.mem_set hPlace task'), hHalf⟩
    · exact Or.inr hAgrees

/-- One step in which the first halves stand keeps the books. -/
theorem booksKept_step {c d : NodeConfig Id} {l : NodeLabel Id} (h : BooksKept c)
    (hHonest : HonestStep c l) (hStand : HalvesStand c l) (hStep : step c l = some d) :
    BooksKept d := by
  have hOrder : d.All fun _ task => task.InOrder := by
    refine step_all h.order hStep (fun _ _ hNew => hNew.inOrder) ?_ ?_
    · intro t input task n' task' spawned hl hTask hIn hTurn
      subst hl
      exact hIn.of_turn (hHonest task hTask) h.file hTurn
    · intro t input task n' task' spawned u other _ _ _ _ _ hIn
      exact hIn
  cases l with
  | call command =>
      obtain rfl := Option.some.inj hStep
      refine ⟨h.file, hOrder, fun id => ?_⟩
      exact (h.settled id).imp_left fun ⟨task, hMem, hHalf⟩ =>
        ⟨task, List.mem_append_left _ hMem, hHalf⟩
  | restart restart =>
      obtain rfl := Option.some.inj hStep
      exact ⟨restart.kept h.file, hOrder, fun id => Or.inr (restart.agrees h.file id)⟩
  | turn t input => exact h.turn hHonest hStand hOrder hStep

/-- When no step undoes half an operation, then between operations a device is
allowed exactly when the store holds a connectable record of it. -/
theorem allowlist_agrees_with_store {restart : Restart Id} {file : List PairedDevice}
    {ls : List (NodeLabel Id)} {c : NodeConfig Id} (hFile : Kept Id file)
    (hRun : exec step (started restart file) ls = some c)
    (hHonest : Meets step HonestStep (started restart file) ls)
    (hStand : Meets step HalvesStand (started restart file) ls) (hQuiet : NoneHalfway c) (id : Id) :
    id ∈ c.shared.access.allowed ↔
      ∃ d, PairedDeviceStore.get String.toLowercase c.shared.file (toStr id) = some d ∧
        d.pairingStatus.isConnectable = true := by
  have hBooks : BooksKept c :=
    (hHonest.and hStand).invariant
      (fun _ _ _ hInv hC hStep => booksKept_step hInv hC.1 hC.2 hStep) hRun
      (booksKept_started restart hFile)
  rcases hBooks.settled id with ⟨task, hMem, hHalf⟩ | hAgrees
  · rw [hQuiet task hMem] at hHalf
    cases hHalf
  · exact hAgrees.trans (Option.any_eq_true ..)

section Devices

instance (task : Task Id) (input : Input) : Decidable (task.Honest input) := by
  unfold Task.Honest
  split <;> infer_instance

instance (c : NodeConfig Id) (l : NodeLabel Id) : Decidable (HonestStep c l) :=
  match l with
  | .turn _ _ => @Option.decidableForallMem _ _ (fun _ => inferInstance) _
  | .call _ | .restart _ => .isTrue trivial

instance (n : Node Id) (busy : Id → Prop) [DecidablePred busy] (todo : List (Call Id)) :
    Decidable (FirstHalfStands n busy todo) := by
  unfold FirstHalfStands
  split
  case h_4 op base cont rest =>
    haveI : DecidablePred fun d : PairedDevice =>
        (∃ id ∈ (recordedId d.endpointId : Option Id), busy id) ∨
          op.CurrentFor base n.file d.endpointId := fun _ =>
      @instDecidableOr _ _ (@Option.decidableExistsMem _ _ (fun _ => inferInstance) _) inferInstance
    exact @instDecidableAnd _ _ (List.decidableBAll _ _)
      (@Option.decidableForallMem _ _ (fun _ => inferInstance) _)
  all_goals infer_instance

instance (c : NodeConfig Id) (t : Nat) : DecidablePred (OtherHalfway c t) :=
  fun _ => List.decidableBEx _ _

instance (c : NodeConfig Id) (l : NodeLabel Id) : Decidable (HalvesStand c l) :=
  match l with
  | .turn _ _ => @Option.decidableForallMem _ _ (fun _ => inferInstance) _
  | .call _ | .restart _ => .isTrue trivial

/-- Bob pairs, and his session waits for him to close. -/
def bobPairs : List (NodeLabel HexId) :=
  pairingRun bob (ourInfo (desktop bob) [1, 2, 3]) ++ goes 2 8

theorem allowlist_agrees_with_store_paired : ∃ c,
    exec step (started (.onIdentity (desktop alice)) []) bobPairs = some c ∧
      ∃ d, PairedDeviceStore.get String.toLowercase c.shared.file (toStr bob) = some d ∧
        d.pairingStatus.isConnectable = true := by
  have hRuns : (∃ c, exec step (started (.onIdentity (desktop alice)) []) bobPairs = some c ∧
      NoneHalfway c ∧ bob ∈ c.shared.access.allowed) ∧
      Meets step HonestStep (started (.onIdentity (desktop alice)) []) bobPairs ∧
      Meets step HalvesStand (started (.onIdentity (desktop alice)) []) bobPairs := by
    decide +kernel
  obtain ⟨⟨c, hRun, hQuiet, hAllowed⟩, hHonest, hStand⟩ := hRuns
  exact ⟨c, hRun, (allowlist_agrees_with_store PairedDeviceStore.kept_nil hRun hHonest hStand hQuiet
    bob).mp hAllowed⟩

/-- Bob unpaired some time ago; alice still lists him. -/
def formerPeer : PairedDevice :=
  ⟨toStr bob, "desktop", "desktop", "linux", 0, 0, none, .unpairedRemotely⟩

/-- Bob pairs again, and alice forgets him when his record is written and he is
not allowed yet. Both operations end. -/
def forgottenWhilePairing : List (NodeLabel HexId) :=
  pairingRun bob (ourInfo (desktop bob) [1, 2, 3]) ++ goes 2 2 ++
    [.call (.forgetPaired (toStr bob))] ++ goes 3 8 ++ goes 2 6

/-- Bob is allowed with no record; nothing is half done. -/
theorem allowed_without_record : ∃ c,
    exec step (started (.onIdentity (desktop alice)) [formerPeer]) forgottenWhilePairing = some c ∧
      Meets step HonestStep (started (.onIdentity (desktop alice)) [formerPeer])
        forgottenWhilePairing ∧
      NoneHalfway c ∧ c.tasks[2]? = some ⟨[], .holding (inboundFrom bob)⟩ ∧
      c.tasks[3]? = some (Task.returned true) ∧
      bob ∈ c.shared.access.allowed ∧
      PairedDeviceStore.get String.toLowercase c.shared.file (toStr bob) = none := by
  decide +kernel

end Devices

end AltSendme
