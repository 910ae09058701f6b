import AltSendme.Native.Turn
import AltSendme.Execution.Progress

/-! One `join_pairing` against the one `handle_connection` it reaches. Either
side moves whenever it can; what one writes is read by the other in order, and
a read can be answered by the end of the connection at any time. -/
namespace AltSendme

variable {Id : Type} [DecidableEq Id] [EndpointKeys Id]
open EndpointKeys (toStr fromStr)

/-- `joinTask` dialled the device of `hostTask`. The joiner opens the one
stream of the connection; `received` is what the host has read from it. -/
structure Link (Id : Type) where
  host : Node Id
  hostTask : Task Id
  joiner : Node Id
  joinTask : Task Id
  keying : List UInt8
  toHost : List ControlMessage
  toJoiner : List ControlMessage
  accepted : Bool
  received : List ControlMessage

/-- What a turn puts on the stream. -/
def Task.written (task : Task Id) (input : Input) : List ControlMessage :=
  match task.todo, input with
  | .send message _ :: _, .go _ => [message]
  | _, _ => []

/-- What a turn takes from the stream. -/
def Input.heard : Input → List ControlMessage
  | .message m => [m]
  | _ => []

/-- A turn in `accept_bi` that gets a stream. -/
def Task.accepts (task : Task Id) (input : Input) : Bool :=
  match task.todo, task.wait, input with
  | [], .acceptBi _, .go _ | [], .pairedAccept _, .go _ => true
  | _, _, _ => false

namespace Link

inductive Label where
  | host (input : Input)
  | joiner (input : Input)
  deriving DecidableEq

/-- A message is read when it is the oldest on the stream, and both ends of
the connection export one keying material. No one aborts either task. -/
def answers (keying : List UInt8) (stream : List ControlMessage) : Input → Bool
  | .message m => stream.head? == some m
  | .connected keying' _ _ => keying' == keying
  | .cancelled => false
  | _ => true

/-- The one stream can be accepted once, and shows when it is first written. -/
def next (link : Link Id) : Label → Option (Link Id)
  | .host input =>
      if answers link.keying link.toHost input ∧
          (link.hostTask.accepts input → link.accepted = false ∧ link.toHost ≠ []) then
        (link.hostTask.turn link.host 0 1 input).map fun (host, hostTask, _) =>
          { link with
            host, hostTask
            toHost := link.toHost.drop input.heard.length
            toJoiner := link.toJoiner ++ link.hostTask.written input
            accepted := link.accepted || link.hostTask.accepts input
            received := link.received ++ input.heard }
      else none
  | .joiner input =>
      if answers link.keying link.toJoiner input then
        (link.joinTask.turn link.joiner 0 1 input).map fun (joiner, joinTask, _) =>
          { link with
            joiner, joinTask
            toHost := link.toHost ++ link.joinTask.written input
            toJoiner := link.toJoiner.drop input.heard.length }
      else none

end Link

/-- `pairing_ticket` -/
def pairingTicket (identity : DeviceIdentity Id) (relayUrl : Option String) : PairingTicket :=
  ⟨1, "pair", toStr identity.id, relayUrl⟩

/-- Two devices whose TLS handshake is done, the joiner having dialled the
ticket of the host. -/
structure Handshake (Id : Type) where
  host : Node Id
  joiner : Node Id
  keying : List UInt8
  connection : Nat
  sessionId : String
  relayUrl : Option String

namespace Handshake
variable (s : Handshake Id)

def hostConn : Connection Id := ⟨s.connection, s.joiner.identity.id, s.keying, s.sessionId⟩

def hostInfo : PairingInfo := ourInfo s.host.identity s.keying

def joinerInfo : PairingInfo := ourInfo s.joiner.identity s.keying

def link : Link Id where
  host := s.host
  hostTask := (Command.inbound s.hostConn).start
  joiner := s.joiner
  joinTask := (Command.joinPairing (some (pairingTicket s.host.identity s.relayUrl))).start
  keying := s.keying
  toHost := []
  toJoiner := []
  accepted := false
  received := []

/-- The host pairs with the joiner, and runs no session of paired devices. -/
def Admits : Prop :=
  s.host.access.pairingHostOpen = true ∧ s.joiner.identity.id ∉ s.host.access.allowed

end Handshake

end AltSendme
