import AltSendme.Native.PairingAgreement

/-! Pairing with a device that may hold a record of the joiner already. The
host looks at its allowlist first, and what it finds there decides whether it
speaks the protocol that the joiner speaks. -/
namespace AltSendme

variable {Id : Type} [DecidableEq Id] [EndpointKeys Id]
open Execution (exec Inevitable)
open EndpointKeys (toStr)

namespace Link

/-- The host has dropped its half of the stream the joiner opened. -/
def hostReleased (link : Link Id) : Bool :=
  link.hostTask.todo.isEmpty &&
    match link.hostTask.wait with
    | .pairedAccept _ => link.accepted
    | .holding _ | .returned _ => true
    | _ => false

/-- No read or write fails, and a connection ends only when the other side is
done with it and everything it wrote has been read. -/
def Faultless (link : Link Id) : Label → Prop
  | .host .fail | .joiner .fail => False
  | .host .closed =>
      link.joinTask.isOver ∧ (link.hostTask.wait.isPairingRead → link.toHost = [])
  | .joiner .closed => link.toJoiner = [] ∧ link.hostReleased
  | _ => True

/-- `join_pairing` returned without an error, the session of the host is over,
and each device stores and allows the other. -/
structure Paired (s : Handshake Id) (link : Link Id) : Prop where
  joined : link.joinTask = Task.returned true
  hostOver : link.hostTask.isOver
  hostStores : link.host.StoresActive s.joiner.identity.id
  joinerStores : link.joiner.StoresActive s.host.identity.id
  hostAllows : s.joiner.identity.id ∈ link.host.access.allowed
  joinerAllows : s.host.identity.id ∈ link.joiner.access.allowed

end Link

namespace Handshake
variable {s : Handshake Id} {conn : Connection Id} {i j : Nat} {n : Node Id} {task : Task Id}

omit [DecidableEq Id] in
theorem HostAt.le (h : s.HostAt i n task) : i ≤ 19 := by
  cases h <;> omega

omit [DecidableEq Id] in
theorem JoinAt.le (h : s.JoinAt conn j n task) : j ≤ 13 := by
  cases h <;> omega

omit [DecidableEq Id] in
/-- A host past its last stage has stored the joiner and allows it. -/
theorem HostAt.done (h : s.HostAt 19 n task) : task.isOver ∧
    n.StoresActive s.joiner.identity.id ∧ s.joiner.identity.id ∈ n.access.allowed := by
  cases h with
  | finished _ hActive hAllowed => exact ⟨rfl, hActive, hAllowed⟩

omit [DecidableEq Id] in
/-- A joiner past its last stage has stored the host and allows it. -/
theorem JoinAt.done (h : s.JoinAt conn 13 n task) : task = Task.returned true ∧
    n.StoresActive s.host.identity.id ∧ s.host.identity.id ∈ n.access.allowed := by
  cases h with
  | finished _ hActive hAllowed => exact ⟨rfl, hActive, hAllowed⟩

omit [DecidableEq Id] in
/-- A joiner that is over has been through all stages. -/
theorem JoinAt.of_isOver (h : s.JoinAt conn j n task) (hOver : task.isOver) : j = 13 := by
  cases h <;> first | rfl | cases hOver

/-- The answer that takes the host from stage `i` to the next. -/
def hostAnswer (s : Handshake Id) (conn : Connection Id) (i : Nat) : Input :=
  if i = 5 then .message (.pairingInfo s.joinerInfo)
  else if i = 7 then .message (rememberVote conn)
  else if i = 18 then .closed
  else .go 0

/-- The answer that takes the joiner from stage `j` to the next. -/
def joinerAnswer (s : Handshake Id) (j : Nat) : Input :=
  if j = 0 then .connected s.keying 0 ""
  else if j = 4 then .message (.pairingInfo s.hostInfo)
  else .go 0

/-- The host can always take the turn its stage waits for. -/
theorem HostAt.turn_hostAnswer (h : s.HostAt i n task) (hi : i < 19) (conn : Connection Id) :
    ∃ result, task.turn n 0 1 (s.hostAnswer conn i) = some result := by
  rw [← Option.isSome_iff_exists]
  cases h with
  | arrived | gated | voted =>
      simp only [hostAnswer, Task.turn, Call.exec, Nat.reduceEqDiff, reduceCtorEq, if_false]
      split_ifs <;> rfl
  | finished => omega
  | _ => rfl

/-- The joiner can always take the turn its stage waits for. -/
theorem JoinAt.turn_joinerAnswer (h : s.JoinAt conn j n task) (hj : j < 13) :
    ∃ result, task.turn n 0 1 (s.joinerAnswer j) = some result := by
  cases h with
  | finished => omega
  | _ => exact ⟨_, rfl⟩

omit [DecidableEq Id] in
theorem HostAt.accepts_hostAnswer (h : s.HostAt i n task) :
    task.accepts (s.hostAnswer conn i) = decide (i = 3) := by
  cases h <;> rfl

omit [DecidableEq Id] in
theorem HostAt.not_released (h : s.HostAt i n task) (hi : i ≤ 4) :
    task.todo ≠ [] ∨ task.wait = .acceptBi s.hostConn := by
  cases h <;> first | exact Or.inl (List.cons_ne_nil _ _) | exact Or.inr rfl | omega

end Handshake

namespace Link
variable {link link' : Link Id} {s : Handshake Id} {conn : Connection Id} {i j : Nat}

theorem exists_next_host {input : Input} (hAnswers : answers link.keying link.toHost input)
    (hAccepts : link.hostTask.accepts input → link.accepted = false ∧ link.toHost ≠ [])
    (hTurn : ∃ result, link.hostTask.turn link.host 0 1 input = some result) :
    ∃ link', link.next (.host input) = some link' := by
  obtain ⟨result, hTurn⟩ := hTurn
  rw [← Option.isSome_iff_exists, next, if_pos ⟨hAnswers, hAccepts⟩, hTurn]
  rfl

theorem exists_next_joiner {input : Input} (hAnswers : answers link.keying link.toJoiner input)
    (hTurn : ∃ result, link.joinTask.turn link.joiner 0 1 input = some result) :
    ∃ link', link.next (.joiner input) = some link' := by
  obtain ⟨result, hTurn⟩ := hTurn
  rw [← Option.isSome_iff_exists, next, if_pos hAnswers, hTurn]
  rfl

omit [DecidableEq Id] in
/-- What the joiner has written by now is what the host has read and can read. -/
theorem PairingAt.toHost_eq (h : PairingAt s link conn i j) (hj : 4 ≤ j) :
    link.toHost = (s.joinerScript conn).drop (Handshake.hostRead i) := by
  have hStream := h.stream
  rw [Handshake.joinerSent, if_neg (by omega), if_neg (by omega)] at hStream
  have hDrop := congrArg (List.drop link.received.length) hStream
  rw [List.drop_left, h.read] at hDrop
  exact hDrop

/-- The joiner can go on unless it waits for the host's info. -/
theorem PairingAt.joiner_ready (h : PairingAt s link conn i j) (hj : j < 13)
    (hInfo : j = 4 → 5 ≤ i) : ∃ l link', link.Faultless l ∧ link.next l = some link' := by
  have hAnswers : answers link.keying link.toJoiner (s.joinerAnswer j) := by
    unfold Handshake.joinerAnswer
    split
    · rw [h.keying]
      exact beq_self_eq_true _
    · split
      · next hRead =>
          have hHead := h.toJoiner (by omega)
          rw [if_pos (hInfo hRead)] at hHead
          rw [answers, hHead]
          exact beq_self_eq_true _
      · rfl
  obtain ⟨link', hNext⟩ := exists_next_joiner hAnswers (h.join.turn_joinerAnswer hj)
  refine ⟨_, link', ?_, hNext⟩
  unfold Handshake.joinerAnswer
  split
  · trivial
  · split <;> trivial

/-- Once the joiner has written, the host can go on, and it waits for the
joiner's end only when it is done itself. -/
theorem PairingAt.host_ready (h : PairingAt s link conn i j) (hi : i < 19) (hj : 4 ≤ j)
    (hOver : i = 18 → j = 13) : ∃ l link', link.Faultless l ∧ link.next l = some link' := by
  have hStream := h.toHost_eq hj
  have hAnswers : answers link.keying link.toHost (s.hostAnswer conn i) := by
    unfold Handshake.hostAnswer
    split
    · next hRead =>
        subst hRead
        rw [answers, hStream]
        exact beq_self_eq_true _
    · split
      · next hRead =>
          subst hRead
          rw [answers, hStream]
          exact beq_self_eq_true _
      · split <;> rfl
  obtain ⟨link', hNext⟩ := exists_next_host hAnswers (by
    rw [h.host.accepts_hostAnswer, decide_eq_true_eq]
    rintro rfl
    rw [h.accepted, hStream]
    exact ⟨rfl, List.cons_ne_nil _ _⟩) (h.host.turn_hostAnswer hi conn)
  refine ⟨_, link', ?_, hNext⟩
  unfold Handshake.hostAnswer
  split
  · trivial
  · split
    · trivial
    · split
      · next hHolding =>
          obtain rfl := hOver hHolding
          refine ⟨by rw [h.join.done.1]; rfl, fun _ => ?_⟩
          rw [hStream, hHolding]
          rfl
      · trivial

omit [DecidableEq Id] in
/-- Both sides past their last stages are paired. -/
theorem PairingAt.paired (h : PairingAt s link conn 19 13) : link.Paired s := by
  obtain ⟨hOver, hHostStores, hHostAllows⟩ := h.host.done
  obtain ⟨hJoined, hJoinerStores, hJoinerAllows⟩ := h.join.done
  exact ⟨hJoined, hOver, hHostStores, hJoinerStores, hHostAllows, hJoinerAllows⟩

/-- A faultless step of two sides that pair takes one of them further. -/
theorem PairingAt.faultless_step (h : PairingAt s link conn i j) (hAdmits : s.Admits) {l : Label}
    (hFaultless : link.Faultless l) (hStep : link.next l = some link') :
    ∃ conn' i' j', i + j < i' + j' ∧ PairingAt s link' conn' i' j' := by
  cases l with
  | host input =>
      rcases h.host_step hStep with ⟨i', hLess, _, _, hNext⟩ | ⟨_, rfl | hDenied⟩ |
        ⟨rfl, hi⟩ | ⟨rfl, _⟩
      · exact ⟨conn, i', j, by omega, hNext⟩
      · cases hFaultless
      · exact absurd hAdmits hDenied
      · -- a joiner that is over has written all of what the host still waits for
        obtain ⟨hOver, hRead⟩ := hFaultless
        obtain rfl := h.join.of_isOver hOver
        have hNone := h.toHost_eq (by omega)
        rw [hRead (h.host.isPairingRead hi)] at hNone
        rcases hi with rfl | rfl <;> cases hNone
      · cases hFaultless
  | joiner input =>
      rcases h.joiner_step hStep with ⟨j', conn', hLess, hNext⟩ | ⟨_, rfl | ⟨rfl, rfl⟩⟩
      · exact ⟨conn', i, j', by omega, hNext⟩
      · cases hFaultless
      · obtain ⟨hNone, hReleased⟩ := hFaultless
        have hHead := h.toJoiner (by omega)
        rw [hNone] at hHead
        have hi : i ≤ 4 := by
          by_contra hLate
          rw [if_pos (by omega)] at hHead
          cases hHead
        rw [hostReleased, Bool.and_eq_true, List.isEmpty_iff] at hReleased
        rcases h.host.not_released hi with hTodo | hWait
        · exact absurd hReleased.1 hTodo
        · rw [hWait] at hReleased
          cases hReleased.2

/-- The two sides pair, and `r` bounds the turns they still need. -/
def PairingWithin (s : Handshake Id) (r : Nat) (link : Link Id) : Prop :=
  ∃ conn i j, r = 32 - (i + j) ∧ PairingAt s link conn i j

/-- An unknown joiner is paired with, whatever the schedule. -/
theorem inevitable_of_admits (hAdmits : s.Admits) :
    Inevitable next Faultless (Paired s) s.link := by
  have hStart : PairingWithin s 32 s.link := ⟨_, 0, 0, rfl, pairingAt_start s⟩
  refine Inevitable.of_rank ?_ ?_ hStart
  · rintro r link ⟨conn, i, j, rfl, h⟩ hNot
    have hi := h.host.le
    have hj := h.join.le
    by_cases hJoiner : j < 13 ∧ (j = 4 → 5 ≤ i)
    · exact h.joiner_ready hJoiner.1 hJoiner.2
    · by_cases hHost : i < 19
      · exact h.host_ready hHost (by omega) (by omega)
      · obtain rfl : i = 19 := by omega
        obtain rfl : j = 13 := by omega
        exact absurd h.paired hNot
  · rintro r link l link' ⟨conn, i, j, rfl, h⟩ hFaultless hStep
    obtain ⟨conn', i', j', hLess, hNext⟩ := h.faultless_step hAdmits hFaultless hStep
    have hi := hNext.host.le
    have hj := hNext.join.le
    exact ⟨32 - (i' + j'), by omega, conn', i', j', rfl, hNext⟩

/-- The host is still to look at its allowlist, or the pairing is lost. -/
def Refusing (s : Handshake Id) (link : Link Id) : Prop :=
  (∃ conn i j, i ≤ 2 ∧ PairingAt s link conn i j) ∨ Lost s link

omit [DecidableEq Id] in
/-- A pairing that is refused has not paired. -/
theorem Refusing.not_paired (h : Refusing s link) : ¬ link.Paired s := by
  intro hPaired
  rcases h with ⟨conn, i, j, hi, hAt⟩ | hLost
  · obtain rfl := hAt.join.of_returned hPaired.joined
    have hGreeted := hAt.greeted (by omega)
    omega
  · exact hLost.not_joined hPaired.joined

/-- A pairing of an allowed joiner stays refused over every step. -/
theorem Refusing.step (hAllowed : s.joiner.identity.id ∈ s.host.access.allowed)
    (h : Refusing s link) {l : Label} (hStep : link.next l = some link') : Refusing s link' := by
  rcases h with ⟨conn, i, j, hi, hAt⟩ | hLost
  · cases l with
    | host input =>
        rcases hAt.host_step hStep with ⟨i', _, hNext, hAdmits, hAt'⟩ | ⟨hRefused, _⟩ |
          ⟨_, hBroken⟩ | ⟨_, hBroken⟩
        · have hi' := hNext (by omega)
          have hNot : i ≠ 2 := fun hGate => (hAdmits hGate).2 hAllowed
          exact Or.inl ⟨conn, i', j, by omega, hAt'⟩
        · exact Or.inr (Or.inl ⟨conn, j, hRefused⟩)
        · omega
        · omega
    | joiner input =>
        rcases hAt.joiner_step hStep with ⟨j', conn', _, hAt'⟩ | ⟨hFailed, _⟩
        · exact Or.inl ⟨conn', i, j', hi, hAt'⟩
        · exact Or.inr (Or.inr hFailed)
  · exact Or.inr (hLost.step hStep)

/-- A joiner that the host has on its allowlist is never paired with. -/
theorem not_inevitable_of_allowed (hAllowed : s.joiner.identity.id ∈ s.host.access.allowed) :
    ¬ Inevitable next Faultless (Paired s) s.link := by
  have hStart : Refusing s s.link := Or.inl ⟨_, 0, 0, by omega, pairingAt_start s⟩
  exact Inevitable.not_of_trap (fun _ h => h.not_paired)
    (fun _ _ _ h _ hStep => h.step hAllowed hStep) hStart

end Link

/-- With the host's pairing window open, every faultless schedule of the two
sides ends with both devices paired if and only if the host does not have the
joiner on its allowlist already. -/
theorem repairing_works_iff {s : Handshake Id} (hOpen : s.host.access.pairingHostOpen = true) :
    Inevitable Link.next Link.Faultless (Link.Paired s) s.link ↔
      s.joiner.identity.id ∉ s.host.access.allowed := by
  constructor
  · intro h hAllowed
    exact Link.not_inevitable_of_allowed hAllowed h
  · intro hUnknown
    exact Link.inevitable_of_admits ⟨hOpen, hUnknown⟩

theorem repairing_works_iff_first :
    Inevitable Link.next Link.Faultless (Link.Paired firstPairing) firstPairing.link :=
  (repairing_works_iff rfl).mpr (by decide)

/-- Alice opens her window for good and pairs with bob. -/
def hostLife : List (NodeLabel HexId) :=
  .call (.startPairingHost none) :: goes 1 7 ++ .call (.inbound firstPairing.hostConn) ::
    goes 2 5 ++ [.turn 2 (.message (.pairingInfo firstPairing.joinerInfo)), .turn 2 (.go 0),
      .turn 2 (.message (.rememberVote "join" .remember))] ++ goes 2 9 ++ [.turn 2 .closed]

/-- Bob joins alice, and forgets her while she cannot be reached. -/
def joinerLife : List (NodeLabel HexId) :=
  .call (.joinPairing (some (pairingTicket (desktop alice) none))) ::
    .turn 1 (.connected [1, 2, 3] 1 "join") :: goes 1 3 ++
    .turn 1 (.message (.pairingInfo firstPairing.hostInfo)) :: goes 1 8 ++
    .call (.forgetPaired (toStr alice)) :: goes 3 8

/-- Bob, who forgot alice, dials her again; she still has him on her list and
waits for what paired devices say. -/
theorem forgotten_host_not_repaired :
    ∃ h, exec step (started (.onIdentity (desktop alice)) []) hostLife = some h ∧
      ∃ j, exec step (started (.onIdentity (desktop bob)) []) joinerLife = some j ∧
        h.shared.access.pairingHostOpen = true ∧ j.shared.file = [] ∧
        ¬ Inevitable Link.next Link.Faultless
          (Link.Paired ⟨h.shared, j.shared, [4, 5, 6], 2, "again", none⟩)
          (Handshake.link ⟨h.shared, j.shared, [4, 5, 6], 2, "again", none⟩) := by
  have hLives : ∃ h, exec step (started (.onIdentity (desktop alice)) []) hostLife = some h ∧
      ∃ j, exec step (started (.onIdentity (desktop bob)) []) joinerLife = some j ∧
        h.shared.access.pairingHostOpen = true ∧ j.shared.file = [] ∧
        j.shared.identity.id ∈ h.shared.access.allowed := by decide +kernel
  obtain ⟨h, hHost, j, hJoiner, hOpen, hForgot, hAllowed⟩ := hLives
  exact ⟨h, hHost, j, hJoiner, hOpen, hForgot, Link.not_inevitable_of_allowed hAllowed⟩

end AltSendme
