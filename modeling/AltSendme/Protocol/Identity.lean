import Mathlib.Logic.Basic

/-! Device records as `identity.rs` persists them. -/

/-- `str::to_lowercase`, for the ASCII that an endpoint id is. -/
def String.toLowercase (text : String) : String := String.ofList (text.toList.map Char.toLower)

theorem Char.toLower_toLower (c : Char) : c.toLower.toLower = c.toLower := by
  unfold toLower
  split
  · next hUpper =>
      rw [dif_neg]
      simp only [ge_iff_le, UInt32.le_iff_toNat_le, UInt32.toNat_add] at hUpper ⊢
      simp at *
      omega
  · rfl

theorem String.toLowercase_toLowercase (text : String) :
    text.toLowercase.toLowercase = text.toLowercase := by
  rw [toLowercase, toLowercase, String.toList_ofList, List.map_map]
  congr 2
  funext c
  exact c.toLower_toLower

namespace AltSendme

/-- Pairing relationship status for a stored remote device. -/
inductive PairingStatus where
  | active
  | unpairedRemotely
  | staleLocalIdentity
  deriving DecidableEq, Repr, Inhabited

namespace PairingStatus

def isActive : PairingStatus → Bool
  | .active => true
  | _ => false

/-- Devices that keep outbound presence loops and allowlist entries. -/
def isConnectable : PairingStatus → Bool
  | .active | .staleLocalIdentity => true
  | .unpairedRemotely => false

end PairingStatus

/-- Paired remote device record. -/
structure PairedDevice where
  endpointId : String
  displayName : String
  deviceType : String
  os : String
  pairedAt : UInt64
  lastSeenAt : UInt64
  relayUrl : Option String
  pairingStatus : PairingStatus
  deriving DecidableEq, Repr

end AltSendme
