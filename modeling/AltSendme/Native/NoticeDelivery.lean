import AltSendme.Native.Notices
import AltSendme.Protocol.HexKeys

/-! The books of a network: for two devices and a notice, what is shown, under way
and still held on either side is never more than what was ordered. -/
namespace AltSendme

variable {Id : Type} [DecidableEq Id] [EndpointKeys Id]
open EndpointKeys (toStr fromStr)
open Execution (exec exec_history)
open Execution.Pool (tally_call tally_turn tally_eq_zero)

namespace Notice
variable {x : Notice} {sender receiver : Id}

variable (x receiver) in
/-- A user's command owes its notice to the device it names, once. -/
theorem owedAt_notify (endpointId : String) (message : ControlMessage) (fallbackPresence : Bool) :
    x.owedAt receiver none (Command.notify endpointId message fallbackPresence : Task Id).wait ≤
      if fromStr endpointId = some receiver ∧ x.isIn message then 1 else 0 := by
  unfold Command.notify
  split
  · exact Nat.zero_le _
  · next remote hId => simp [owedAt, hId]

variable (x receiver) in
/-- A command owes what it orders, and has nothing to show. -/
theorem owed_of_command (command : Command Id) :
    x.owed receiver command.peer command.start ≤ if x.isOrdered receiver command then 1 else 0 := by
  have hSilent : ∀ c ∈ command.start.todo, x.isWritten c = false := fun c hc =>
    isWritten_of_isFirst (List.all_eq_true.mp command.starts.isFirst.1 c hc)
  rw [owed_of_silent _ hSilent]
  cases command with
  | invitePairedDevice endpointId invite =>
      have hNotify := owedAt_notify x receiver endpointId (.invite invite) true
      simpa [isOrdered, isIn, Command.start, Command.peer] using hNotify
  | respondPairedInvite endpointId response =>
      have hNotify := owedAt_notify x receiver endpointId
        (.inviteResponse "" response) false
      simpa [isOrdered, isIn, Command.start, Command.peer] using hNotify
  | joinPairing ticket =>
      unfold Command.start
      dsimp only
      split
      · exact Nat.zero_le _
      · split <;> exact Nat.zero_le _
  | _ => exact Nat.zero_le _

/-- No user's command has anything to show yet. -/
theorem due_of_command (command : Command Id) : x.due sender command.start = 0 :=
  countP_eq_zero fun c hc =>
    isReported_of_isFirst (List.all_eq_true.mp command.starts.isFirst.1 c hc)

/-! What a turn of device `a` does to the two devices and to what is between them. -/

section Turn
variable {net : Network Id} {a : Id} {t : Nat} {task task' : Task Id} {input : Input}
  {n' : Node Id} {spawned : List (Task Id)}

variable (x sender receiver) in
/-- Over the whole device, a turn trades what was owed for what is on the way. -/
theorem tally_owed_turn
    (hCase : ∀ text (id : Id), fromStr text = some id → fromStr text.toLowercase = some id)
    (hNames : NamesKept (net.device a)) (hTask : (net.device a).tasks[t]? = some task)
    (hTurn : task.turn (net.device a).shared t (net.device a).tasks.length input =
      some (n', task', spawned)) :
    (Function.update net.device a ⟨n', (net.device a).tasks.set t task' ++ spawned⟩ sender).tally
        (fun u => x.owed receiver (Function.update net.peer a
          (Network.peersAfter (net.peer a) (net.device a) t task input) sender u)) +
        (Network.sent a (net.peer a t) task input).countP (x.isUnderWay sender receiver) ≤
      (net.device sender).tally (fun u => x.owed receiver (net.peer sender u)) := by
  by_cases hSender : sender = a
  · subst hSender
    rw [Function.update_self, Function.update_self]
    have hTally := tally_turn (fun u => x.owed receiver (net.peer sender u))
      (fun u => x.owed receiver
        (Network.peersAfter (net.peer sender) (net.device sender) t task input u)) n' task' hTask
      (fun u other hut hOther => by
        have hLength : u < (net.device sender).tasks.length :=
          (List.getElem?_eq_some_iff.mp hOther).1
        simp [Network.peersAfter, hut, hLength])
      (fun u new hNew => owed_of_spawned hTurn hNew _)
    have hOwn := owed_of_turn x sender receiver hCase
      hNames.sessions (hNames.tasks t task hTask).2 (net.peer sender t) hTurn
    have hPeer : Network.peersAfter (net.peer sender) (net.device sender) t task input t =
        (task.connects (net.device sender).shared input).or (net.peer sender t) := if_pos rfl
    rw [hPeer] at hTally
    omega
  · rw [Function.update_of_ne hSender, Function.update_of_ne hSender]
    have hSent : (Network.sent a (net.peer a t) task input).countP
        (x.isUnderWay sender receiver) = 0 := by
      apply countP_eq_zero
      intro letter hLetter
      unfold Network.sent at hLetter
      split at hLetter
      · obtain ⟨_, _, rfl⟩ := List.mem_map.mp hLetter
        simp [isUnderWay, Ne.symm hSender]
      · obtain ⟨_, _, rfl⟩ := List.mem_map.mp hLetter
        simp [isUnderWay, Ne.symm hSender]
      · cases hLetter
    omega

variable (x sender receiver) in
/-- Over the whole device, a turn trades what was heard for what is shown or due. -/
theorem tally_due_turn (hTask : (net.device a).tasks[t]? = some task)
    (hTurn : task.turn (net.device a).shared t (net.device a).tasks.length input =
      some (n', task', spawned)) :
    (Function.update net.device a
          ⟨n', (net.device a).tasks.set t task' ++ spawned⟩ receiver).tally
        (fun _ => x.due sender) +
        (Function.update net.shown a (net.shown a ++
          n'.events.drop (net.device a).shared.events.length) receiver).countP
          (x.isShown sender) ≤
      (net.device receiver).tally (fun _ => x.due sender) +
        (net.shown receiver).countP (x.isShown sender) +
        (Network.heard a task input).countP (x.isUnderWay sender receiver) := by
  by_cases hReceiver : receiver = a
  · subst hReceiver
    rw [Function.update_self, Function.update_self, List.countP_append]
    have hTally := tally_turn (fun _ => x.due sender) (fun _ => x.due sender) n' task' hTask
      (fun _ _ _ _ => rfl) (fun _ _ hNew => due_of_spawned hTurn hNew)
    have hOwn := due_of_turn x sender receiver hTurn
    omega
  · rw [Function.update_of_ne hReceiver, Function.update_of_ne hReceiver]
    omega

omit [EndpointKeys Id] in
/-- Whatever is counted in flight, a turn takes away what it heard and adds what it sent. -/
theorem countP_inFlight (hHeard : ∀ letter ∈ Network.heard a task input, letter ∈ net.inFlight)
    (p : Letter Id → Bool) (sent : List (Letter Id)) :
    (net.inFlight.diff (Network.heard a task input) ++ sent).countP p +
        (Network.heard a task input).countP p = net.inFlight.countP p + sent.countP p := by
  have hSub : (Network.heard a task input).Subperm net.inFlight := by
    unfold Network.heard at hHeard ⊢
    cases hHears : task.wait.hears with
    | none => exact List.nil_subperm
    | some from' =>
        rw [hHears] at hHeard
        cases input with
        | message m =>
            exact List.singleton_subperm_iff.mpr (hHeard _ (by simp [Input.heard]))
        | _ => exact List.nil_subperm
  have hLe := hSub.countP_le p
  rw [List.countP_append, List.countP_diff hSub]
  omega

end Turn

omit [EndpointKeys Id] in
theorem owed_supervisor (peer : Option Id) :
    x.owed receiver peer (⟨[.refresh], .supervising⟩ : Task Id) = 0 := ite_self _

/-- A device that has just started holds nothing. -/
theorem tally_started (restart : Restart Id) (file : List PairedDevice)
    {weight : Nat → Task Id → Nat} (hWeight : ∀ t, weight t ⟨[.refresh], .supervising⟩ = 0) :
    (started restart file).tally weight = 0 := by
  apply tally_eq_zero
  intro t task hTask
  obtain rfl := List.mem_singleton.mp (List.mem_of_getElem? hTask)
  exact hWeight t

/-- A restart leaves only the supervisor, which owes nothing. -/
theorem tally_restart {c d : NodeConfig Id} {restart : Restart Id}
    {weight : Nat → Task Id → Nat} (h : step c (.restart restart) = some d)
    (hWeight : ∀ t, weight t ⟨[.refresh], .supervising⟩ = 0) : d.tally weight = 0 := by
  obtain rfl := Option.some.inj h
  exact tally_started restart c.shared.file hWeight

/-- At the start every device is its supervisor alone. -/
theorem tally_start (identity : Id → DeviceIdentity Id) (file : Id → List PairedDevice) (a : Id)
    {weight : Nat → Task Id → Nat} (hWeight : ∀ t, weight t ⟨[.refresh], .supervising⟩ = 0) :
    ((Network.start identity file).device a).tally weight = 0 :=
  tally_started _ _ hWeight

variable (x receiver) in
/-- No step makes more of a notice outstanding than it orders. -/
theorem outstanding_step
    (hCase : ∀ text (id : Id), fromStr text = some id → fromStr text.toLowercase = some id)
    {program : Id → Bool} (hSender : program sender = true) {net net' : Network Id}
    {l : NetworkLabel Id} (hNames : ∀ a, NamesKept (net.device a))
    (hStep : net.next program l = some net') :
    x.outstanding sender receiver net' ≤
      x.outstanding sender receiver net + if x.isOrderedBy sender receiver l then 1 else 0 := by
  cases l with
  | call a command =>
      obtain ⟨c, hCall, rfl⟩ := Network.next_call_eq_some hStep
      have hOwed := owed_of_command x receiver command
      have hSenderTally : (Function.update net.device a c sender).tally (fun u => x.owed receiver
            (Function.update net.peer a (Function.update (net.peer a)
              (net.device a).tasks.length command.peer) sender u)) ≤
          (net.device sender).tally (fun u => x.owed receiver (net.peer sender u)) +
            if x.isOrderedBy sender receiver (.call a command) then 1 else 0 := by
        by_cases hSame : sender = a
        · subst hSame
          rw [Function.update_self, Function.update_self]
          have hTally := tally_call (fun u => x.owed receiver (net.peer sender u))
            (fun u => x.owed receiver (Function.update (net.peer sender)
              (net.device sender).tasks.length command.peer u)) hCall (fun u other hOther => by
              have hLength : u < (net.device sender).tasks.length :=
                (List.getElem?_eq_some_iff.mp hOther).1
              simp [Function.update_of_ne (Nat.ne_of_lt hLength)])
          rw [hTally, Function.update_self]
          refine Nat.add_le_add_left ?_ _
          simpa [isOrderedBy, nodePool] using hOwed
        · rw [Function.update_of_ne hSame, Function.update_of_ne hSame]
          exact Nat.le_add_right _ _
      have hReceiverTally :
          (Function.update net.device a c receiver).tally (fun _ => x.due sender) =
            (net.device receiver).tally (fun _ => x.due sender) := by
        by_cases hSame : receiver = a
        · subst hSame
          rw [Function.update_self,
            tally_call (fun _ => x.due sender) (fun _ => x.due sender) hCall (fun _ _ _ => rfl)]
          exact congrArg _ (due_of_command command)
        · rw [Function.update_of_ne hSame]
      simp only [outstanding]
      omega
  | turn a t input =>
      obtain ⟨task, n', task', spawned, hTask, hHeard, hTurn, rfl⟩ :=
        Network.next_turn_eq_some hStep
      have hOwed := tally_owed_turn x sender receiver hCase (hNames a) hTask hTurn
      have hDue := tally_due_turn x sender receiver hTask hTurn
      have hFlight := countP_inFlight hHeard (x.isUnderWay sender receiver)
        (Network.sent a (net.peer a t) task input)
      simp only [outstanding, isOrderedBy]
      omega
  | restart a other =>
      obtain ⟨c, hRestart, rfl⟩ := Network.next_restart_eq_some hStep
      have hOwed : (Function.update net.device a c sender).tally (fun u => x.owed receiver
            (Function.update net.peer a (fun _ => none) sender u)) ≤
          (net.device sender).tally (fun u => x.owed receiver (net.peer sender u)) := by
        by_cases hSame : sender = a
        · subst hSame
          rw [Function.update_self, tally_restart hRestart (fun _ => owed_supervisor _)]
          exact Nat.zero_le _
        · rw [Function.update_of_ne hSame, Function.update_of_ne hSame]
      have hDue : (Function.update net.device a c receiver).tally (fun _ => x.due sender) ≤
          (net.device receiver).tally (fun _ => x.due sender) := by
        by_cases hSame : receiver = a
        · subst hSame
          rw [Function.update_self, tally_restart hRestart (fun _ => rfl)]
          exact Nat.zero_le _
        · rw [Function.update_of_ne hSame]
      simp only [outstanding]
      omega
  | foreign letter =>
      obtain ⟨hForeign, rfl⟩ := Network.next_foreign_eq_some hStep
      have hNe : letter.sender ≠ sender := by
        intro hSame
        rw [hSame, hSender] at hForeign
        cases hForeign
      have hOther : x.isUnderWay sender receiver letter = false := by simp [isUnderWay, hNe]
      simp [outstanding, hOther]

end Notice

/-- The names of every device are kept by every step of the network. -/
theorem Network.namesKept_next
    (hCase : ∀ text (id : Id), fromStr text = some id → fromStr text.toLowercase = some id)
    {program : Id → Bool} {net net' : Network Id} {l : NetworkLabel Id}
    (hNames : ∀ a, NamesKept (net.device a)) (hStep : net.next program l = some net') :
    ∀ a, NamesKept (net'.device a) := by
  intro a
  rcases device_next hStep a with hSame | ⟨own, hOwn⟩
  · rw [hSame]
    exact hNames a
  · exact (hNames a).step hCase hOwn

/-- What a device shows as another's notice, that device's user has ordered for this
one, and it is shown once for each order at most: whatever else any device does,
whenever tasks end and devices restart, and whatever devices that do not run the
program write. -/
theorem notices_neither_forged_nor_doubled
    (hCase : ∀ text (id : Id), fromStr text = some id → fromStr text.toLowercase = some id)
    {program : Id → Bool} {identity : Id → DeviceIdentity Id} {file : Id → List PairedDevice}
    {ls : List (NetworkLabel Id)} {net : Network Id}
    (hRun : exec (Network.next program) (Network.start identity file) ls = some net)
    {sender : Id} (hSender : program sender = true) (receiver : Id) (x : Notice) :
    net.inFlight.countP (x.isUnderWay sender receiver) +
        (net.shown receiver).countP (x.isShown sender) ≤
      ls.countP (x.isOrderedBy sender receiver) := by
  have hBooks := @exec_history _ _ (Network.next program)
    (fun ls net => (∀ a, NamesKept (net.device a)) ∧
      x.outstanding sender receiver net ≤ ls.countP (x.isOrderedBy sender receiver))
    (Network.start identity file) ?_ ?_ ls net hRun
  · have hTotal := hBooks.2
    unfold Notice.outstanding at hTotal
    omega
  · refine ⟨fun a => namesKept_started _ _, ?_⟩
    unfold Notice.outstanding
    rw [Notice.tally_start identity file sender fun _ => Notice.owed_supervisor _,
      Notice.tally_start identity file receiver fun _ => rfl]
    exact Nat.le_refl 0
  · intro ls m l t hPrior ⟨hNames, hTotal⟩ hNext
    refine ⟨Network.namesKept_next hCase hNames hNext, ?_⟩
    have hStep := Notice.outstanding_step x receiver hCase hSender hNames hNext
    rw [List.countP_append, List.countP_singleton]
    omega

/-! Alice invites Bob, whose session with her waits for a message. -/

/-- The hexadecimal ids parse the same in lower case, as the ids of the network do. -/
theorem HexId.fromStr_toLowercase (text : String) (id : HexId) (h : fromStr text = some id) :
    fromStr text.toLowercase = some id := by
  have hText : text = id.text := by
    change HexId.parse text = some id at h
    unfold HexId.parse at h
    split at h
    · rw [← Option.some.inj h]
    · cases h
  rw [hText, id.text_toLowercase]
  exact EndpointKeys.fromStr_toStr id

private def bothPaired : HexId → List PairedDevice := fun id =>
  [pairedRecord (if id = alice then bob else alice)]

private def aliceInvites : List (NetworkLabel HexId) :=
  [.call bob (.inbound (inboundFrom alice))] ++ List.replicate 11 (.turn bob 1 (.go 0)) ++
    [.call alice (.invitePairedDevice (toStr bob) ⟨"blob", 1, 2, "Alice"⟩)] ++
    List.replicate 2 (.turn alice 1 (.go 0)) ++
    [.turn alice 1 .closed, .turn alice 1 (.connected [1, 2, 3] 0 "s")] ++
    List.replicate 6 (.turn alice 1 (.go 0)) ++
    [.turn bob 1 (.message (.invite ⟨"blob", 1, 2, "Alice"⟩)), .turn bob 1 (.go 0)]

theorem notices_neither_forged_nor_doubled_invite : ∃ net,
    exec (Network.next fun _ => true) (Network.start desktop bothPaired) aliceInvites = some net ∧
      (net.shown bob).countP
        ((Notice.ofInvite ⟨"blob", 1, 2, "Alice"⟩).isShown alice) = 1 ∧
      net.inFlight.countP
          ((Notice.ofInvite ⟨"blob", 1, 2, "Alice"⟩).isUnderWay alice bob) +
          (net.shown bob).countP ((Notice.ofInvite ⟨"blob", 1, 2, "Alice"⟩).isShown alice) ≤
        aliceInvites.countP ((Notice.ofInvite ⟨"blob", 1, 2, "Alice"⟩).isOrderedBy alice bob) := by
  have hRuns : ∃ net,
      exec (Network.next fun _ => true) (Network.start desktop bothPaired) aliceInvites = some net ∧
        (net.shown bob).countP
          ((Notice.ofInvite ⟨"blob", 1, 2, "Alice"⟩).isShown alice) = 1 := by
    decide +kernel
  obtain ⟨net, hRun, hShown⟩ := hRuns
  exact ⟨net, hRun, hShown,
    notices_neither_forged_nor_doubled HexId.fromStr_toLowercase hRun rfl bob _⟩

end AltSendme
