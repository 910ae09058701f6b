import AltSendme.Native.Link
import Mathlib.Data.List.Perm.Subperm

/-! Any number of devices that run the program, and others that do not. A task
writes to the device at the other end of its connection, and reads what that
device has written to its own; in which order, and whether at all, is up to the
network. -/
namespace AltSendme

variable {Id : Type} [DecidableEq Id] [EndpointKeys Id]
open EndpointKeys (toStr fromStr)

/-- A message on a connection, as TLS names its two ends. -/
structure Letter (Id : Type) where
  sender : Id
  receiver : Id
  message : ControlMessage
  deriving DecidableEq

/-- The device whose stream a task reads. -/
def Wait.hears : Wait Id → Option Id
  | .pairing conn _ | .pairedRead conn | .joinRead conn _ | .outboundRead _ _ conn =>
      some conn.remote
  | _ => none

/-- The device that an answer connects a task with. -/
def Wait.connects (n : Node Id) : Wait Id → Input → Option Id
  | .joinConnect remote _, .connected _ _ _ => some remote
  | .connecting endpointId _, .connected _ _ _ => fromStr endpointId
  | .notifyWait _ endpointId _ _, .go _ => (n.sessions endpointId.toLowercase).map (·.remote)
  | .notifyConnect remote _ _ _, .connected _ _ _ => some remote
  | _, _ => none

def Task.connects (n : Node Id) (task : Task Id) (input : Input) : Option Id :=
  match task.todo with
  | [] => task.wait.connects n input
  | _ :: _ => none

/-- An inbound connection has its other end from the start. -/
def Command.peer : Command Id → Option Id
  | .inbound conn => some conn.remote
  | _ => none

/-- `peer` is the other end of the connection that a task holds, `shown` what a
device has shown its user since it was installed. -/
structure Network (Id : Type) where
  device : Id → NodeConfig Id
  peer : Id → Nat → Option Id
  inFlight : List (Letter Id)
  shown : Id → List NodeEvent

/-- A device that does not run the program writes what it likes, as itself. -/
inductive NetworkLabel (Id : Type) where
  | call (device : Id) (command : Command Id)
  | turn (device : Id) (task : Nat) (input : Input)
  | restart (device : Id) (restart : Restart Id)
  | foreign (letter : Letter Id)

namespace Network

/-- What a turn takes from the network. -/
def heard (device : Id) (task : Task Id) (input : Input) : List (Letter Id) :=
  task.wait.hears.toList.flatMap fun sender => input.heard.map (⟨sender, device, ·⟩)

/-- What a turn gives to the network. A write that fails may have got through. -/
def sent (device : Id) (peer : Option Id) (task : Task Id) (input : Input) : List (Letter Id) :=
  match task.todo, input with
  | .send message _ :: _, .go _ | .send message _ :: _, .fail =>
      peer.toList.map (⟨device, ·, message⟩)
  | _, _ => []

/-- A task keeps its connection until it is connected anew. -/
def peersAfter (peer : Nat → Option Id) (c : NodeConfig Id) (t : Nat) (task : Task Id)
    (input : Input) (u : Nat) : Option Id :=
  if u = t then (task.connects c.shared input).or (peer t)
  else if u < c.tasks.length then peer u
  else none

def next (program : Id → Bool) (net : Network Id) : NetworkLabel Id → Option (Network Id)
  | .call a command =>
      (step (net.device a) (.call command)).map fun c =>
        { net with
          device := Function.update net.device a c
          peer := Function.update net.peer a
            (Function.update (net.peer a) (net.device a).tasks.length command.peer) }
  | .turn a t input =>
      ((net.device a).tasks[t]?).bind fun task =>
        if ∀ letter ∈ heard a task input, letter ∈ net.inFlight then
          (step (net.device a) (.turn t input)).map fun c =>
            { device := Function.update net.device a c
              peer := Function.update net.peer a
                (peersAfter (net.peer a) (net.device a) t task input)
              inFlight :=
                net.inFlight.diff (heard a task input) ++ sent a (net.peer a t) task input
              shown := Function.update net.shown a
                (net.shown a ++ c.shared.events.drop (net.device a).shared.events.length) }
        else none
  | .restart a restart =>
      if restart.identity.id = a then
        (step (net.device a) (.restart restart)).map fun c =>
          { net with
            device := Function.update net.device a c
            peer := Function.update net.peer a fun _ => none }
      else none
  | .foreign letter =>
      if program letter.sender then none
      else some { net with inFlight := net.inFlight ++ [letter] }

/-- Every device has just been started on its own data directory. -/
def start (identity : Id → DeviceIdentity Id) (file : Id → List PairedDevice) : Network Id where
  device a := started (.onIdentity { identity a with id := a }) (file a)
  peer _ _ := none
  inFlight := []
  shown _ := []

/-! What one step does to the network. -/

section Next
variable {program : Id → Bool} {net net' : Network Id} {a : Id}

theorem next_call_eq_some {command : Command Id}
    (h : net.next program (.call a command) = some net') :
    ∃ c, step (net.device a) (.call command) = some c ∧
      net' = { net with
        device := Function.update net.device a c
        peer := Function.update net.peer a
          (Function.update (net.peer a) (net.device a).tasks.length command.peer) } := by
  simp only [next] at h
  obtain ⟨c, hCall, rfl⟩ := Option.map_eq_some_iff.mp h
  exact ⟨c, hCall, rfl⟩

/-- A task takes its turn, and reads only what the other end has written. -/
theorem next_turn_eq_some {t : Nat} {input : Input}
    (h : net.next program (.turn a t input) = some net') :
    ∃ task n' task' spawned, (net.device a).tasks[t]? = some task ∧
      (∀ letter ∈ heard a task input, letter ∈ net.inFlight) ∧
      task.turn (net.device a).shared t (net.device a).tasks.length input =
        some (n', task', spawned) ∧
      net' =
        { device := Function.update net.device a
            ⟨n', (net.device a).tasks.set t task' ++ spawned⟩
          peer := Function.update net.peer a
            (peersAfter (net.peer a) (net.device a) t task input)
          inFlight := net.inFlight.diff (heard a task input) ++ sent a (net.peer a t) task input
          shown := Function.update net.shown a
            (net.shown a ++ n'.events.drop (net.device a).shared.events.length) } := by
  simp only [next] at h
  obtain ⟨task, hTask, h⟩ := Option.bind_eq_some_iff.mp h
  split at h
  · next hHeard =>
      obtain ⟨c, hTurn, rfl⟩ := Option.map_eq_some_iff.mp h
      obtain ⟨task₀, n', task', spawned, hTask₀, hTurn, rfl⟩ :=
        nodePool.next_turn_eq_some.mp hTurn
      obtain rfl : task = task₀ := Option.some.inj (hTask.symm.trans hTask₀)
      exact ⟨task, n', task', spawned, hTask, hHeard, hTurn, rfl⟩
  · cases h

theorem next_restart_eq_some {restart : Restart Id}
    (h : net.next program (.restart a restart) = some net') :
    ∃ c, step (net.device a) (.restart restart) = some c ∧
      net' = { net with
        device := Function.update net.device a c
        peer := Function.update net.peer a fun _ => none } := by
  simp only [next] at h
  split at h
  · obtain ⟨c, hRestart, rfl⟩ := Option.map_eq_some_iff.mp h
    exact ⟨c, hRestart, rfl⟩
  · cases h

theorem next_foreign_eq_some {letter : Letter Id}
    (h : net.next program (.foreign letter) = some net') :
    program letter.sender = false ∧ net' = { net with inFlight := net.inFlight ++ [letter] } := by
  simp only [next] at h
  split at h
  · cases h
  · next hForeign =>
      obtain rfl := Option.some.inj h
      exact ⟨Bool.not_eq_true _ ▸ hForeign, rfl⟩

/-- Every step of the network is one of a single device, or of none. -/
theorem device_next {l : NetworkLabel Id} (h : net.next program l = some net') (b : Id) :
    net'.device b = net.device b ∨
      ∃ own, step (net.device b) own = some (net'.device b) := by
  have hUpdated (a : Id) (own : NodeLabel Id) (c : NodeConfig Id)
      (hStep : step (net.device a) own = some c) :
      Function.update net.device a c b = net.device b ∨
        ∃ own, step (net.device b) own = some (Function.update net.device a c b) := by
    by_cases hSame : b = a
    · subst hSame
      rw [Function.update_self]
      exact Or.inr ⟨own, hStep⟩
    · exact Or.inl (Function.update_of_ne hSame ..)
  cases l with
  | call a command =>
      obtain ⟨c, hCall, rfl⟩ := next_call_eq_some h
      exact hUpdated a _ c hCall
  | turn a t input =>
      obtain ⟨task, n', task', spawned, hTask, _, hTurn, rfl⟩ := next_turn_eq_some h
      apply hUpdated a (.turn t input)
      exact nodePool.next_turn_eq_some.mpr ⟨task, n', task', spawned, hTask, hTurn, rfl⟩
  | restart a other =>
      obtain ⟨c, hRestart, rfl⟩ := next_restart_eq_some h
      exact hUpdated a _ c hRestart
  | foreign letter =>
      obtain ⟨_, rfl⟩ := next_foreign_eq_some h
      exact Or.inl rfl

end Next

end Network

end AltSendme
