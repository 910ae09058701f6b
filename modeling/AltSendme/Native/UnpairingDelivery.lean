import AltSendme.Native.RemoteUnpairing
import AltSendme.Native.StoredNames

/-! The books of a network that forgets, and the records of a device: one is marked
as unpaired by another device only where that one's user has ordered it. -/
namespace AltSendme

variable {Id : Type} [DecidableEq Id] [EndpointKeys Id]
open EndpointKeys (toStr fromStr)
open Execution (exec exec_history)
open Execution.Pool (tally_call tally_turn weight_le_tally)
open Notice (countP_eq_zero tally_restart tally_start)

namespace Unpairing
variable {sender receiver : Id}

variable (receiver) in
/-- Only a command to forget the device leaves something to tell it. -/
theorem counts_of_starts (a : Id) {command : Command Id} {task : Task Id}
    (h : command.Starts task) :
    leaving receiver task ≤ (if isOrdered a receiver (.net (.call a command)) then 1 else 0) ∧
      marking receiver task = 0 := by
  cases h with
  | forgetPaired endpointId | forgetAllowed endpointId =>
      refine ⟨?_, rfl⟩
      simp [leaving, managerForget, isLeaving, isOrdered]
  | _ => exact ⟨Nat.zero_le _, rfl⟩

/-- Replacing one entry moves a count by that entry alone. -/
theorem countP_set_add {α : Type} {p : α → Bool} {xs : List α} {k : Nat} {old : α} (new : α)
    (h : xs[k]? = some old) :
    (xs.set k new).countP p + (if p old then 1 else 0) = xs.countP p + if p new then 1 else 0 := by
  obtain ⟨hLength, hGet⟩ := List.getElem?_eq_some_iff.mp h
  have hLe : (if p old then 1 else 0) ≤ xs.countP p := by
    split
    · next hOld => exact List.countP_pos_iff.mpr ⟨old, hGet ▸ List.getElem_mem hLength, hOld⟩
    · exact Nat.zero_le _
  rw [List.countP_set hLength, hGet]
  omega

/-- What a task has to tell, it tells once. -/
theorem stage_turn {identity : DeviceIdentity Id} {stage stage' : ForgetStage Id} {input : Input}
    (h : stage.turn identity input = some stage') (a : Id) :
    (if stage'.isFor receiver then 1 else 0) +
        (stage.written a input).countP (isUnderWay sender receiver) ≤
      if stage.isFor receiver then 1 else 0 := by
  have hLetter (remote : Id) (message : ControlMessage) :
      [(⟨a, remote, message⟩ : Letter Id)].countP (isUnderWay sender receiver) ≤
        if (ForgetStage.writing remote message).isFor receiver then 1 else 0 := by
    by_cases hSame : remote = receiver
    · simp [isUnderWay, ForgetStage.isFor, hSame, List.countP_singleton]
      split <;> omega
    · simp [isUnderWay, ForgetStage.isFor, hSame]
  unfold ForgetStage.turn at h
  split at h
  · cases h
    exact Nat.le_refl _
  · cases h
    exact Nat.zero_le _
  · cases h
    exact Nat.zero_le _
  · cases h
    exact Nat.le_refl _
  · cases h
    exact Nat.zero_le _
  · cases h
    rw [Nat.add_comm]
    exact hLetter _ _
  · cases h
    rw [Nat.add_comm]
    exact hLetter _ _
  · cases h
    exact Nat.zero_le _
  · cases h

section Turn
variable {net : Network Id} {a : Id} {t : Nat} {task task' : Task Id} {input : Input}
  {n' : Node Id} {spawned : List (Task Id)}

variable (sender receiver) in
/-- What a turn still has to tell it hands to the unpairing that it begins. -/
theorem tally_leaving_turn (forgetting : Id → List (ForgetStage Id)) (hMute : task.Mute)
    (hTask : (net.device a).tasks[t]? = some task)
    (hTurn : task.turn (net.device a).shared t (net.device a).tasks.length input =
      some (n', task', spawned)) :
    (Function.update net.device a ⟨n', (net.device a).tasks.set t task' ++ spawned⟩ sender).tally
        (fun _ => leaving receiver) +
      (Function.update forgetting a (forgetting a ++
        ((task.forgets input).toList.map ForgetStage.start)) sender).countP
          (ForgetStage.isFor receiver) ≤
      (net.device sender).tally (fun _ => leaving receiver) +
        (forgetting sender).countP (ForgetStage.isFor receiver) := by
  by_cases hSame : sender = a
  · subst hSame
    rw [Function.update_self, Function.update_self, List.countP_append]
    have hTally := tally_turn (fun _ => leaving receiver) (fun _ => leaving receiver) n' task' hTask
      (fun _ _ _ _ => rfl)
      (fun _ _ hNew => (@counts_of_spawned _ _ _ receiver receiver _ _ _ _ _ _ _ _ hTurn _ hNew).1)
    have hOwn := leaving_of_turn receiver hMute hTurn
    omega
  · rw [Function.update_of_ne hSame, Function.update_of_ne hSame]

variable (sender receiver) in
/-- What the receiver has shown and still has to mark grows by at most what it heard. -/
theorem tally_marking_turn (hMute : task.Mute) (hTask : (net.device a).tasks[t]? = some task)
    (hTurn : task.turn (net.device a).shared t (net.device a).tasks.length input =
      some (n', task', spawned)) :
    (Function.update net.device a ⟨n', (net.device a).tasks.set t task' ++ spawned⟩ receiver).tally
          (fun _ => marking sender) +
        (Function.update net.shown a (net.shown a ++
          n'.events.drop (net.device a).shared.events.length) receiver).countP
          (isShown sender) ≤
      (net.device receiver).tally (fun _ => marking sender) +
        (net.shown receiver).countP (isShown sender) +
        (Network.heard a task input).countP (isUnderWay sender receiver) := by
  by_cases hSame : receiver = a
  · subst hSame
    rw [Function.update_self, Function.update_self, List.countP_append]
    have hTally := tally_turn (fun _ => marking sender) (fun _ => marking sender) n' task' hTask
      (fun _ _ _ _ => rfl)
      (fun _ _ hNew => (@counts_of_spawned _ _ _ sender sender _ _ _ _ _ _ _ _ hTurn _ hNew).2)
    have hOwn := marking_of_turn sender receiver hMute hTurn
    omega
  · rw [Function.update_of_ne hSame, Function.update_of_ne hSame]
    exact Nat.le_add_right _ _

end Turn

/-! No step makes more outstanding than it orders. -/

section Step
variable {w : ForgettingNetwork Id} {net' : Network Id}

variable (sender receiver) in
/-- A command adds an outstanding unpairing only where it orders one. -/
theorem outstanding_call {program : Id → Bool} {a : Id} {command : Command Id}
    (h : w.net.next program (.call a command) = some net') :
    outstanding sender receiver ⟨net', w.forgetting⟩ ≤ outstanding sender receiver w +
      if isOrdered sender receiver (.net (.call a command)) then 1 else 0 := by
  obtain ⟨c, hCall, rfl⟩ := Network.next_call_eq_some h
  have hLeft : (Function.update w.net.device a c sender).tally (fun _ => leaving receiver) ≤
      (w.net.device sender).tally (fun _ => leaving receiver) +
        if isOrdered sender receiver (.net (.call a command)) then 1 else 0 := by
    by_cases hSame : sender = a
    · subst hSame
      rw [Function.update_self, tally_call _ _ hCall (fun _ _ _ => rfl)]
      exact Nat.add_le_add_left (counts_of_starts receiver sender command.starts).1 _
    · rw [Function.update_of_ne hSame]
      exact Nat.le_add_right _ _
  have hMarked : (Function.update w.net.device a c receiver).tally (fun _ => marking sender) =
      (w.net.device receiver).tally (fun _ => marking sender) := by
    by_cases hSame : receiver = a
    · subst hSame
      rw [Function.update_self, tally_call _ _ hCall (fun _ _ _ => rfl)]
      exact congrArg _ (counts_of_starts sender receiver command.starts).2
    · rw [Function.update_of_ne hSame]
  simp only [outstanding]
  omega

variable (sender receiver) in
/-- A turn only moves outstanding unpairings on; it adds none. -/
theorem outstanding_turn {program : Id → Bool} {a : Id} {t : Nat} {input : Input}
    (hMute : (w.net.device a).All fun _ task => task.Mute)
    (h : w.net.next program (.turn a t input) = some net') :
    outstanding sender receiver ⟨net', w.forgettingAfter (.turn a t input)⟩ ≤
      outstanding sender receiver w := by
  obtain ⟨task, n', task', spawned, hTask, hHeard, hTurn, rfl⟩ := Network.next_turn_eq_some h
  have hOwn := hMute t task hTask
  have hLeft := tally_leaving_turn sender receiver w.forgetting hOwn hTask hTurn
  have hMarked := tally_marking_turn sender receiver hOwn hTask hTurn
  have hFlight := Notice.countP_inFlight hHeard (isUnderWay sender receiver)
    (Network.sent a (w.net.peer a t) task input)
  rw [countP_sent hOwn, Nat.add_zero] at hFlight
  simp only [outstanding, ForgettingNetwork.forgettingAfter, hTask, Option.bind_some]
  omega

variable (sender receiver) in
/-- What a device was to tell is lost when its process ends. -/
theorem outstanding_restart {program : Id → Bool} {a : Id} {restart : Restart Id}
    (h : w.net.next program (.restart a restart) = some net') :
    outstanding sender receiver ⟨net', w.forgettingAfter (.restart a restart)⟩ ≤
      outstanding sender receiver w := by
  obtain ⟨c, hRestart, rfl⟩ := Network.next_restart_eq_some h
  have hLeft : (Function.update w.net.device a c sender).tally (fun _ => leaving receiver) +
        (Function.update w.forgetting a [] sender).countP (ForgetStage.isFor receiver) ≤
      (w.net.device sender).tally (fun _ => leaving receiver) +
        (w.forgetting sender).countP (ForgetStage.isFor receiver) := by
    by_cases hSame : sender = a
    · subst hSame
      rw [Function.update_self, Function.update_self, tally_restart hRestart (fun _ => rfl)]
      exact Nat.zero_le _
    · rw [Function.update_of_ne hSame, Function.update_of_ne hSame]
  have hMarked : (Function.update w.net.device a c receiver).tally (fun _ => marking sender) ≤
      (w.net.device receiver).tally (fun _ => marking sender) := by
    by_cases hSame : receiver = a
    · subst hSame
      rw [Function.update_self, tally_restart hRestart (fun _ => rfl)]
      exact Nat.zero_le _
    · rw [Function.update_of_ne hSame]
  simp only [outstanding, ForgettingNetwork.forgettingAfter]
  omega

variable (receiver) in
/-- Whoever writes what it likes writes as itself. -/
theorem outstanding_foreign {program : Id → Bool} (hSender : program sender = true)
    {letter : Letter Id} (h : w.net.next program (.foreign letter) = some net') :
    outstanding sender receiver ⟨net', w.forgetting⟩ = outstanding sender receiver w := by
  obtain ⟨hForeign, rfl⟩ := Network.next_foreign_eq_some h
  have hNe : letter.sender ≠ sender := by
    intro hSame
    rw [hSame, hSender] at hForeign
    cases hForeign
  have hOther : isUnderWay sender receiver letter = false := by simp [isUnderWay, hNe]
  simp [outstanding, hOther]

omit [EndpointKeys Id] [DecidableEq Id] in
/-- The sender of an unpairing's notice is the device that it runs on. -/
theorem sender_of_written {a : Id} {stage : ForgetStage Id} {input : Input} {letter : Letter Id}
    (h : letter ∈ stage.written a input) : letter.sender = a := by
  unfold ForgetStage.written at h
  split at h
  · rw [List.mem_singleton.mp h]
  · rw [List.mem_singleton.mp h]
  · cases h

variable (sender receiver) in
/-- A turn of an unpairing writes its notice at most once. -/
theorem outstanding_forget {a : Id} {k : Nat} {stage stage' : ForgetStage Id} {input : Input}
    (hStage : (w.forgetting a)[k]? = some stage)
    (hTurn : stage.turn (w.net.device a).shared.identity input = some stage') :
    outstanding sender receiver
        { net := { w.net with inFlight := w.net.inFlight ++ stage.written a input }
          forgetting := Function.update w.forgetting a ((w.forgetting a).set k stage') } ≤
      outstanding sender receiver w := by
  simp only [outstanding, List.countP_append]
  by_cases hSame : sender = a
  · subst hSame
    have hOwn := @stage_turn _ _ _ sender receiver _ _ _ _ hTurn sender
    have hSet := @countP_set_add _ (ForgetStage.isFor receiver) _ _ _ stage' hStage
    rw [Function.update_self]
    omega
  · have hOther : (stage.written a input).countP (isUnderWay sender receiver) = 0 := by
      apply countP_eq_zero
      intro letter hLetter
      have hNe : letter.sender ≠ sender := fun h => hSame (h.symm.trans (sender_of_written hLetter))
      simp [isUnderWay, hNe]
    rw [Function.update_of_ne hSame, hOther]
    omega

variable (receiver) in
/-- One step of the network adds at most the unpairing that it orders. -/
theorem outstanding_step {program : Id → Bool} (hSender : program sender = true)
    {w' : ForgettingNetwork Id} {l : ForgettingLabel Id}
    (hMute : ∀ a, (w.net.device a).All fun _ task => task.Mute)
    (hStep : w.next program l = some w') :
    outstanding sender receiver w' ≤
      outstanding sender receiver w + if isOrdered sender receiver l then 1 else 0 := by
  cases l with
  | forget a k input =>
      simp only [ForgettingNetwork.next] at hStep
      obtain ⟨stage, hStage, hStep⟩ := Option.bind_eq_some_iff.mp hStep
      obtain ⟨stage', hTurn, rfl⟩ := Option.map_eq_some_iff.mp hStep
      exact Nat.le_add_right_of_le (outstanding_forget sender receiver hStage hTurn)
  | net l =>
      obtain ⟨net', hNext, rfl⟩ := Option.map_eq_some_iff.mp hStep
      cases l with
      | call a command => exact outstanding_call sender receiver hNext
      | turn a t input =>
          exact Nat.le_add_right_of_le (outstanding_turn sender receiver (hMute a) hNext)
      | restart a other =>
          exact Nat.le_add_right_of_le (outstanding_restart sender receiver hNext)
      | foreign letter =>
          exact Nat.le_add_right_of_le
            (Nat.le_of_eq (outstanding_foreign receiver hSender hNext))

end Step

/-! The records. -/

variable (sender)

/-- The record says that `sender` has forgotten this device. -/
def Blames (d : PairedDevice) : Prop :=
  d.pairingStatus = .unpairedRemotely ∧ d.endpointId.toLowercase = toStr sender

instance (d : PairedDevice) : Decidable (Blames sender d) :=
  inferInstanceAs (Decidable (_ ∧ _))

def Unblamed (file : List PairedDevice) : Prop := ∀ d ∈ file, ¬Blames sender d

/-- A device that is remembered is active. -/
def Remembers (op : StoreOp) : Prop :=
  ∀ device, op = .remember device → device.pairingStatus = .active

/-- A write of the task leaves no record that blames `sender`, unless it marks one. -/
def CallUnblamed : Call Id → Prop
  | .store op _ => Remembers op
  | .storeWrite op base _ => Remembers op ∧ Unblamed sender base
  | _ => True

structure AllUnblamed (c : NodeConfig Id) : Prop where
  file : Unblamed sender c.shared.file
  calls : c.All fun _ task => ∀ call ∈ task.todo, CallUnblamed sender call

variable {sender}

omit [DecidableEq Id] [EndpointKeys Id] in
/-- Every record after a change is an old one or the change of an old one. -/
theorem mem_modify {lower : String → String} {endpointId : String}
    {change : PairedDevice → PairedDevice} {file : List PairedDevice} {d : PairedDevice}
    (h : d ∈ PairedDeviceStore.modify lower endpointId change file) :
    d ∈ file ∨ ∃ old ∈ file, lower old.endpointId = lower endpointId ∧ d = change old := by
  induction file with
  | nil => exact Or.inl h
  | cons first rest ih =>
      rw [PairedDeviceStore.modify, List.replaceF] at h
      cases hSame : PairedDeviceStore.sameId lower endpointId first with
      | false =>
          rw [hSame] at h
          rcases List.mem_cons.mp h with rfl | hRest
          · exact Or.inl List.mem_cons_self
          · rcases ih hRest with hOld | ⟨old, hOld, hFound⟩
            · exact Or.inl (List.mem_cons_of_mem _ hOld)
            · exact Or.inr ⟨old, List.mem_cons_of_mem _ hOld, hFound⟩
      | true =>
          rw [hSame] at h
          rcases List.mem_cons.mp h with rfl | hRest
          · exact Or.inr ⟨first, List.mem_cons_self, PairedDeviceStore.sameId_iff.mp hSame, rfl⟩
          · exact Or.inl (List.mem_cons_of_mem _ hRest)

omit [DecidableEq Id] in
/-- A store call that does not mark the record of `sender` leaves none that blames it. -/
theorem unblamed_apply {op : StoreOp} {base : List PairedDevice} (hBase : Unblamed sender base)
    (hRemembers : Remembers op)
    (hMarks : op.marks = false ∨ op.endpointId.toLowercase ≠ toStr sender) :
    Unblamed sender (op.apply String.toLowercase base) := by
  have hActive {d : PairedDevice} (h : d.pairingStatus = .active) : ¬Blames sender d := by
    rintro ⟨hStatus, -⟩
    rw [h] at hStatus
    cases hStatus
  cases op with
  | remember device =>
      exact PairedDeviceStore.forall_mem_remember (fun _ _ => hActive rfl)
        (hActive (hRemembers device rfl)) hBase
  | rename endpointId displayName =>
      rw [StoreOp.apply, StoreOp.run]
      split
      · exact hBase
      · intro d hd
        rcases mem_modify hd with hOld | ⟨old, hOld, -, rfl⟩
        · exact hBase d hOld
        · exact hBase old hOld
  | forget endpointId => exact fun d hd => hBase d (List.mem_filter.mp hd).1
  | touch endpointId lastSeenAt =>
      rw [StoreOp.apply, StoreOp.run]
      split
      · exact hBase
      · intro d hd
        rcases mem_modify hd with hOld | ⟨old, hOld, -, rfl⟩
        · exact hBase d hOld
        · exact hBase old hOld
  | markUnpairedRemotely endpointId =>
      have hOther : endpointId.toLowercase ≠ toStr sender :=
        hMarks.resolve_left (by simp [StoreOp.marks])
      rw [StoreOp.apply, StoreOp.run]
      split
      · exact hBase
      · intro d hd
        rcases mem_modify hd with hOld | ⟨old, -, hSame, rfl⟩
        · exact hBase d hOld
        · rintro ⟨-, hBlamed⟩
          exact hOther (hSame.symm.trans hBlamed)

omit [DecidableEq Id] in
/-- Marking for a new local key blames nobody. -/
theorem unblamed_markStale {file : List PairedDevice} (h : Unblamed sender file) :
    Unblamed sender (PairedDeviceStore.markStaleAfterLocalIdentityRotation file) := by
  intro d hd
  obtain ⟨before, hBefore, rfl⟩ := List.mem_map.mp hd
  rw [PairedDeviceStore.markStale]
  split
  · rintro ⟨hStatus, -⟩
    cases hStatus
  · exact h before hBefore

/-- A call that carries no list read before and remembers no device. -/
def isRecordless : Call Id → Bool
  | .store (.remember _) _ | .storeWrite _ _ _ => false
  | _ => true

omit [DecidableEq Id] in
/-- A call that carries no record cannot blame the sender. -/
theorem callUnblamed_of_recordless {c : Call Id} (h : isRecordless c = true) :
    CallUnblamed sender c := by
  cases c with
  | store op cont =>
      rintro device rfl
      cases h
  | storeWrite op base cont => cases h
  | _ => trivial

omit [EndpointKeys Id] [DecidableEq Id] in
/-- A test that no storing call passes admits only calls without a record. -/
theorem isRecordless_of {p : Call Id → Bool}
    (hRemember : ∀ device cont, p (.store (.remember device) cont) = false)
    (hWrite : ∀ op base cont, p (.storeWrite op base cont) = false) {c : Call Id}
    (h : p c = true) : isRecordless c = true := by
  unfold isRecordless
  split
  · rw [hRemember] at h
    cases h
  · rw [hWrite] at h
    cases h
  · rfl

omit [DecidableEq Id] in
/-- What a call puts in its own place writes over what the file holds now. -/
theorem callUnblamed_of_pushes {n : Node Id} {fresh : Nat} {call c : Call Id}
    (h : call.Pushes n fresh c) (hFile : Unblamed sender n.file)
    (hCall : CallUnblamed sender call) : CallUnblamed sender c := by
  cases h with
  | registered conn isOpen c h =>
      simp only [registerInbound, setSession, List.mem_cons, List.not_mem_nil, or_false] at h
      rcases h with rfl | rfl | rfl | rfl <;> trivial
  | write op cont => exact ⟨hCall, hFile⟩
  | unpairedKept op cont c h | unpaired op base cont c h =>
      exact callUnblamed_of_recordless (isRecordless_of (fun _ _ => rfl) (fun _ _ _ => rfl) h)
  | remember info relayUrl now =>
      rintro device hDevice
      injection hDevice with hDevice
      rw [← hDevice]
      rfl
  | touch => exact callUnblamed_of_recordless rfl
  | _ => trivial

section Turn
variable {n n' : Node Id} {self fresh : Nat} {task task' : Task Id} {input : Input}
  {spawned : List (Task Id)}

/-- While the file blames nobody, no turn comes to carry a record that does. -/
theorem callsUnblamed_of_turn (hTask : ∀ call ∈ task.todo, CallUnblamed sender call)
    (hFile : Unblamed sender n.file)
    (h : task.turn n self fresh input = some (n', task', spawned)) :
    ∀ call ∈ task'.todo, CallUnblamed sender call := by
  intro c hMem
  rcases Task.turn_eq_some h with ⟨_, _, _, rfl, _⟩ | ⟨_, _, _, hNext⟩ | ⟨call, rest, hTodo, hExec⟩
  · cases hMem
  · have hAnswer := List.all_eq_true.mp (Wait.resume_kind hNext).1 c hMem
    exact callUnblamed_of_recordless (isRecordless_of (fun _ _ => rfl) (fun _ _ _ => rfl) hAnswer)
  · rcases (Call.exec_moves hExec).pushed with hNone | ⟨conn, s, info, now, _, _, rfl⟩ |
      ⟨pushed, hNext, hPushed⟩
    · rw [hNone] at hMem
      cases hMem
    · rcases List.mem_cons.mp hMem with rfl | hRest
      · rintro device hDevice
        injection hDevice with hDevice
        rw [← hDevice]
        rfl
      · have hNone : ([.allowPeer conn.remote, .refresh, .emit .devicePaired,
            .send (rememberVote conn) false, .closeUnlessPersistent] :
              List (Call Id)).all isRecordless = true := rfl
        exact callUnblamed_of_recordless (List.all_eq_true.mp hNone c hRest)
    · rw [hTodo, List.forall_mem_cons] at hTask
      rw [hNext] at hMem
      rcases List.mem_append.mp hMem with hNew | hOld
      · exact callUnblamed_of_pushes (hPushed c hNew) hFile hTask.1
      · exact hTask.2 c hOld

/-- A turn that has no notice to mark leaves the file blaming nobody. -/
theorem unblamed_of_turn (hTask : ∀ call ∈ task.todo, CallUnblamed sender call)
    (hFile : Unblamed sender n.file) (hMarking : marking sender task = 0)
    (h : task.turn n self fresh input = some (n', task', spawned)) : Unblamed sender n'.file := by
  rcases Task.file_of_turn h with ⟨op, base, cont, rest, now, hTodo, rfl, hNew⟩ | ⟨hSame, _⟩
  · have hMem : Call.storeWrite op base cont ∈ task.todo := hTodo ▸ List.mem_cons_self
    obtain ⟨hRemembers, hBase⟩ := hTask _ hMem
    rw [hNew]
    refine unblamed_apply hBase hRemembers ?_
    have hNot := List.countP_eq_zero.mp hMarking _ hMem
    simp only [isMarking, Bool.and_eq_true, Bool.or_eq_true, decide_eq_true_eq] at hNot
    by_cases hMarks : op.marks = true
    · exact Or.inr fun hSame => hNot ⟨Or.inl hMarks, hSame⟩
    · exact Or.inl (Bool.not_eq_true _ ▸ hMarks)
  · rw [hSame]
    exact hFile

end Turn

omit [DecidableEq Id] in
theorem NewTask.callsUnblamed {task : Task Id} (h : NewTask task) :
    ∀ call ∈ task.todo, CallUnblamed sender call := fun c hMem =>
  callUnblamed_of_recordless (isRecordless_of (fun _ _ => rfl) (fun _ _ _ => rfl)
    (List.all_eq_true.mp h.isFirst.1 c hMem))

/-- A start from a file that blames nobody blames nobody. -/
theorem allUnblamed_started (restart : Restart Id) {file : List PairedDevice}
    (hFile : Unblamed sender file) : AllUnblamed sender (started restart file) := by
  constructor
  · rw [started, Restart.node]
    dsimp only
    split
    · exact unblamed_markStale hFile
    · exact hFile
  · intro t task hTask
    exact NewTask.callsUnblamed (started_new hTask)

/-- A device none of whose tasks marks the record of `sender` keeps none that blames it. -/
theorem AllUnblamed.step {c d : NodeConfig Id} {l : NodeLabel Id} (h : AllUnblamed sender c)
    (hMarking : ∀ (t : Nat) task, c.tasks[t]? = some task → marking sender task = 0)
    (hStep : AltSendme.step c l = some d) : AllUnblamed sender d := by
  have hFile : Unblamed sender d.shared.file := by
    cases l with
    | call command =>
        obtain rfl := Option.some.inj hStep
        exact h.file
    | restart restart =>
        obtain rfl := Option.some.inj hStep
        exact (allUnblamed_started restart h.file).file
    | turn t input =>
        obtain ⟨task, n', task', spawned, hTask, hTurn, rfl⟩ := nodePool.next_turn_eq_some.mp hStep
        exact unblamed_of_turn (h.calls t task hTask) h.file (hMarking t task hTask) hTurn
  refine ⟨hFile, ?_⟩
  refine step_all h.calls hStep (fun _ _ hNew => NewTask.callsUnblamed hNew) ?_ ?_
  · intro t input task n' task' spawned _ _ hTask hTurn
    exact callsUnblamed_of_turn hTask h.file hTurn
  · intro _ _ _ _ _ _ _ _ _ _ _ _ _ hOther
    exact hOther

/-- A step of the network is at most one step of each of its devices. -/
theorem device_step {program : Id → Bool} {w w' : ForgettingNetwork Id}
    {l : ForgettingLabel Id} (h : w.next program l = some w') (a : Id) :
    w'.net.device a = w.net.device a ∨
      ∃ own, AltSendme.step (w.net.device a) own = some (w'.net.device a) := by
  cases l with
  | forget b k input =>
      simp only [ForgettingNetwork.next] at h
      obtain ⟨stage, -, h⟩ := Option.bind_eq_some_iff.mp h
      obtain ⟨stage', -, rfl⟩ := Option.map_eq_some_iff.mp h
      exact Or.inl rfl
  | net l =>
      obtain ⟨net', hNext, rfl⟩ := Option.map_eq_some_iff.mp h
      exact Network.device_next hNext a

end Unpairing

open Unpairing

/-- A device tells its user that another has forgotten it at most as often as that
one's user has ordered this, with what is still under way. And its file says so of
the other only where that one's user has ordered it, or where it said so before:
whatever else any device does, whenever tasks end and devices restart, and whatever
devices that do not run the program write. -/
theorem unpairing_neither_forged_nor_doubled {program : Id → Bool}
    {identity : Id → DeviceIdentity Id} {file : Id → List PairedDevice}
    {ls : List (ForgettingLabel Id)} {w : ForgettingNetwork Id}
    (hRun : exec (ForgettingNetwork.next program) (ForgettingNetwork.start identity file) ls =
      some w)
    {sender : Id} (hSender : program sender = true) (receiver : Id) :
    w.net.inFlight.countP (isUnderWay sender receiver) +
        (w.net.shown receiver).countP (isShown sender) ≤
      ls.countP (isOrdered sender receiver) ∧
    ∀ d ∈ (w.net.device receiver).shared.file, Blames sender d →
      (∃ l ∈ ls, isOrdered sender receiver l = true) ∨ ∃ d ∈ file receiver, Blames sender d := by
  have hBooks := @exec_history _ _ (ForgettingNetwork.next program)
    (fun ls w => (∀ a, (w.net.device a).All fun _ task => task.Mute) ∧
      outstanding sender receiver w ≤ ls.countP (isOrdered sender receiver) ∧
      (Unblamed sender (file receiver) → ls.countP (isOrdered sender receiver) = 0 →
        AllUnblamed sender (w.net.device receiver)))
    (ForgettingNetwork.start identity file) ?_ ?_ ls w hRun
  · obtain ⟨-, hTotal, hRecords⟩ := hBooks
    constructor
    · unfold outstanding at hTotal
      omega
    · intro d hd hBlames
      by_cases hBefore : Unblamed sender (file receiver)
      · left
        by_contra hNone
        have hZero : ls.countP (isOrdered sender receiver) = 0 :=
          List.countP_eq_zero.mpr fun l hl hOrdered => hNone ⟨l, hl, hOrdered⟩
        exact (hRecords hBefore hZero).file d hd hBlames
      · right
        unfold Unblamed at hBefore
        push Not at hBefore
        exact hBefore
  · refine ⟨fun a => mute_started _ _, ?_, fun hBefore _ => allUnblamed_started _ hBefore⟩
    unfold outstanding ForgettingNetwork.start
    rw [tally_start identity file sender fun _ => rfl,
      tally_start identity file receiver fun _ => rfl]
    exact Nat.le_refl 0
  · intro ls m l t hPrior ⟨hMute, hTotal, hRecords⟩ hNext
    have hStep := outstanding_step receiver hSender hMute hNext
    refine ⟨fun a => ?_, ?_, fun hBefore hZero => ?_⟩
    · rcases device_step hNext a with hSame | ⟨own, hOwn⟩
      · rw [hSame]
        exact hMute a
      · exact mute_step (hMute a) hOwn
    · rw [List.countP_append, List.countP_singleton]
      omega
    · rw [List.countP_append] at hZero
      have hClean := hRecords hBefore (by omega)
      have hMarking : ∀ (u : Nat) task, (m.net.device receiver).tasks[u]? = some task →
          marking sender task = 0 := by
        intro u task hTask
        have hWeight := @weight_le_tally _ _ (fun _ => marking sender) _ _ _ hTask
        unfold outstanding at hTotal
        omega
      rcases device_step hNext receiver with hSame | ⟨own, hOwn⟩
      · rw [hSame]
        exact hClean
      · exact hClean.step hMarking hOwn

private def pairedEachOther : HexId → List PairedDevice := fun id =>
  [pairedRecord (if id = alice then bob else alice)]

/-- Alice forgets Bob while he is connected to her, and he hears of it. -/
private def aliceForgets : List (ForgettingLabel HexId) :=
  [.net (.call bob (.inbound (inboundFrom alice)))] ++
    List.replicate 11 (.net (.turn bob 1 (.go 0))) ++
    [.net (.call alice (.forgetPaired (toStr bob)))] ++
    List.replicate 8 (.net (.turn alice 1 (.go 0))) ++
    [.forget alice 0 (.connected [1, 2, 3] 0 "s"), .forget alice 0 (.go 0),
      .forget alice 0 (.go 0),
      .net (.turn bob 1 (.message (.forget (signChallenge alice [1, 2, 3]))))] ++
    List.replicate 8 (.net (.turn bob 1 (.go 0)))

theorem unpairing_neither_forged_nor_doubled_bob : ∃ w d,
    exec (ForgettingNetwork.next fun _ => true) (ForgettingNetwork.start desktop pairedEachOther)
        aliceForgets = some w ∧
      (w.net.shown bob).countP (isShown alice) = 1 ∧
      d ∈ (w.net.device bob).shared.file ∧ Blames alice d ∧
      w.net.inFlight.countP (isUnderWay alice bob) + (w.net.shown bob).countP (isShown alice) ≤
        aliceForgets.countP (isOrdered alice bob) ∧
      ((∃ l ∈ aliceForgets, isOrdered alice bob l = true) ∨
        ∃ d ∈ pairedEachOther bob, Blames alice d) := by
  have hRuns : ∃ w,
      exec (ForgettingNetwork.next fun _ => true) (ForgettingNetwork.start desktop pairedEachOther)
          aliceForgets = some w ∧
        (w.net.shown bob).countP (isShown alice) = 1 ∧
        ∃ d ∈ (w.net.device bob).shared.file, Blames alice d := by
    decide +kernel
  obtain ⟨w, hRun, hShown, d, hd, hBlames⟩ := hRuns
  obtain ⟨hCount, hRecord⟩ := unpairing_neither_forged_nor_doubled hRun rfl bob
  exact ⟨w, d, hRun, hShown, hd, hBlames, hCount, hRecord d hd hBlames⟩

end AltSendme
