import AltSendme.Native.PairingStages
import AltSendme.Native.PairingIdentity

/-! What a joiner that returned without an error may conclude. The host sends
its identity before it reads, so the joiner can be done while its own two
messages are still on the way; whether they arrive is up to the host's reads. -/
namespace AltSendme

variable {Id : Type} [DecidableEq Id] [EndpointKeys Id]
open Execution (exec Meets)

/-- The task has returned. -/
def Task.isOver (task : Task Id) : Bool := task.todo.isEmpty && task.wait.kind = .over

/-- `read_message` in the pairing loop. -/
def Wait.isPairingRead : Wait Id → Bool
  | .pairing _ _ => true
  | _ => false

/-- A read or a write of the paired-device file. -/
def Call.isStoreAccess : Call Id → Bool
  | .store _ _ | .storeWrite _ _ _ => true
  | _ => false

namespace Handshake
variable {s : Handshake Id} {i : Nat} {n : Node Id} {task : Task Id}

omit [DecidableEq Id] in
theorem HostAt.isPairingRead (h : s.HostAt i n task) (hi : i = 5 ∨ i = 7) :
    task.wait.isPairingRead := by
  cases h <;> first | rfl | omega

omit [DecidableEq Id] in
theorem HostAt.isStoreAccess (h : s.HostAt i n task) (hi : i = 9 ∨ i = 10) :
    task.todo.head?.any Call.isStoreAccess := by
  cases h <;> first | rfl | omega

omit [DecidableEq Id] in
/-- A session that is over has done all of its pairing. -/
theorem HostAt.of_isOver (h : s.HostAt i n task) (hOver : task.isOver) :
    i = 19 ∧ n.StoresActive s.joiner.identity.id := by
  cases h <;> first | exact ⟨rfl, by assumption⟩ | cases hOver

end Handshake

namespace Link

/-- The loop of the host does not lose the connection to a joiner that has not
failed, and the host's file can be read and written. -/
def HearsOut (link : Link Id) : Label → Prop
  | .host .closed => link.hostTask.wait.isPairingRead → link.joinTask = Task.returned false
  | .host .fail => ¬ link.hostTask.todo.head?.any Call.isStoreAccess
  | _ => True

instance (link : Link Id) : ∀ l, Decidable (link.HearsOut l)
  | .host .closed => inferInstanceAs (Decidable (_ → _))
  | .host .fail => inferInstanceAs (Decidable (¬ _))
  | .host (.go _) | .host (.message _) | .host (.connected _ _ _) | .host .cancelled
  | .joiner _ => .isTrue trivial

/-- The sides are pairing, or it is too late for that. -/
def Agreeing (s : Handshake Id) (link : Link Id) : Prop :=
  (∃ conn i j, PairingAt s link conn i j) ∨ Lost s link

theorem Agreeing.step {s : Handshake Id} {link link' : Link Id} {l : Label}
    (h : Agreeing s link) (hHears : link.HearsOut l) (hStep : link.next l = some link') :
    Agreeing s link' := by
  rcases h with ⟨conn, i, j, hAt⟩ | hLost
  · cases l with
    | host input =>
        rcases hAt.host_step hStep with ⟨i', _, _, _, hNext⟩ | ⟨hRefused, _⟩ | ⟨rfl, hi⟩ |
          ⟨rfl, hi⟩
        · exact Or.inl ⟨conn, i', j, hNext⟩
        · exact Or.inr (Or.inl ⟨conn, j, hRefused⟩)
        · -- the loop may only lose a joiner that failed before
          have hFailed := hHears (hAt.host.isPairingRead hi)
          exact Or.inr (Or.inr (failed_step hFailed hStep))
        · exact absurd (hAt.host.isStoreAccess hi) hHears
    | joiner input =>
        rcases hAt.joiner_step hStep with ⟨j', conn', _, hNext⟩ | ⟨hFailed, _⟩
        · exact Or.inl ⟨conn', i, j', hNext⟩
        · exact Or.inr (Or.inr hFailed)
  · exact Or.inr (hLost.step hStep)

end Link

/-- In every run in which the host hears the joiner out, a `join_pairing` that
returned without an error has a host that read both of its messages and holds
it as an active device once its session is over. -/
theorem pairing_agreement {s : Handshake Id} {ls : List Link.Label} {link : Link Id}
    (hRun : exec Link.next s.link ls = some link)
    (hHears : Meets Link.next Link.HearsOut s.link ls)
    (hOk : link.joinTask = Task.returned true) (hOver : link.hostTask.isOver) :
    (∃ sessionId, link.received =
        [.pairingInfo s.joinerInfo, .rememberVote sessionId .remember]) ∧
      link.host.StoresActive s.joiner.identity.id := by
  have hAgreeing : Link.Agreeing s link :=
    hHears.invariant (fun _ _ _ hInv hC hStep => Link.Agreeing.step hInv hC hStep) hRun
      (Or.inl ⟨_, 0, 0, Link.pairingAt_start s⟩)
  rcases hAgreeing with ⟨conn, i, j, hAt⟩ | hLost
  · obtain ⟨rfl, hActive⟩ := hAt.host.of_isOver hOver
    obtain rfl := hAt.join.of_returned hOk
    have hStream : link.received ++ link.toHost = s.joinerScript conn := hAt.stream
    have hLength : link.received.length = 2 := hAt.read
    have hAll : link.received = s.joinerScript conn := by
      have hTake := congrArg (List.take 2) hStream
      rw [← hLength, List.take_left, hLength] at hTake
      exact hTake
    exact ⟨⟨conn.sessionId, hAll⟩, hActive⟩
  · exact absurd hOk hLost.not_joined

/-- A fresh device whose user opened the pairing window. -/
def hosting (id : HexId) : Node HexId :=
  { (Restart.onIdentity (desktop id)).node [] with access := ⟨∅, true⟩, pairingHostOpen := true }

/-- Bob, a fresh device too, dialled the ticket of alice. -/
def firstPairing : Handshake HexId where
  host := hosting alice
  joiner := (Restart.onIdentity (desktop bob)).node []
  keying := [1, 2, 3]
  connection := 0
  sessionId := "host"
  relayUrl := none

/-- The joiner connects and writes, and the host writes its info. -/
def introductions : List Link.Label :=
  .joiner (.connected [1, 2, 3] 1 "join") :: List.replicate 3 (.joiner (.go 0)) ++
    List.replicate 5 (.host (.go 0))

/-- The joiner reads the info and does everything up to its return. -/
def joinerFinishes : List Link.Label :=
  .joiner (.message (.pairingInfo firstPairing.hostInfo)) :: List.replicate 8 (.joiner (.go 0))

def hostFinishes : List Link.Label :=
  [.host (.message (.pairingInfo firstPairing.joinerInfo)), .host (.go 0),
    .host (.message (.rememberVote "join" .remember))] ++ List.replicate 10 (.host (.go 0)) ++
    [.host .closed]

theorem pairing_agreement_first :
    ∃ link, exec Link.next firstPairing.link (introductions ++ joinerFinishes ++ hostFinishes) =
      some link ∧ link.joinTask = Task.returned true ∧
      link.host.StoresActive firstPairing.joiner.identity.id := by
  have hRun : (∃ link, exec Link.next firstPairing.link
      (introductions ++ joinerFinishes ++ hostFinishes) = some link ∧
      link.joinTask = Task.returned true ∧ link.hostTask.isOver) ∧
      Meets Link.next Link.HearsOut firstPairing.link
        (introductions ++ joinerFinishes ++ hostFinishes) := by decide +kernel
  obtain ⟨⟨link, hRun, hOk, hOver⟩, hHears⟩ := hRun
  exact ⟨link, hRun, hOk, (pairing_agreement hRun hHears hOk hOver).2⟩

/-- Bob is done and his last handle closes the connection before alice has
read: bob holds alice as paired, alice does not know bob. -/
theorem joined_unheard :
    ∃ link, exec Link.next firstPairing.link
        (introductions ++ joinerFinishes ++ [.host .closed]) = some link ∧
      link.joinTask = Task.returned true ∧ link.joiner.StoresActive alice ∧
      link.hostTask.isOver ∧ link.received = [] ∧ ¬ link.host.StoresActive bob := by
  decide +kernel

end AltSendme
