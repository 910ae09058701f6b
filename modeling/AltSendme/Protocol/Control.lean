import Mathlib.Logic.Basic

/-! Messages of the control protocol (`control.rs`), as they are after the
framing has been removed and the JSON parsed. -/
namespace AltSendme

structure PairingInfo where
  endpointId : String
  displayName : String
  deviceType : String
  os : String
  signature : String
  deriving DecidableEq, Repr

inductive RememberVote where
  | remember
  | no
  deriving DecidableEq, Repr

structure Invite where
  blobTicket : String
  fileCount : UInt32
  totalSize : UInt64
  senderName : String
  deriving DecidableEq, Repr

inductive InviteResponse where
  | accepted
  | declined
  deriving DecidableEq, Repr

inductive ControlMessage where
  | pairingInfo (info : PairingInfo)
  | rememberVote (sessionId : String) (vote : RememberVote)
  | invite (invite : Invite)
  | inviteResponse (sessionId : String) (response : InviteResponse)
  | recognition (signature : String)
  | forget (signature : String)
  deriving DecidableEq, Repr

/-- Pairing join payload, after `decode`. -/
structure PairingTicket where
  v : UInt32
  kind : String
  endpointId : String
  relayUrl : Option String
  deriving DecidableEq, Repr

end AltSendme
