import AltSendme.Protocol.Control
import AltSendme.Protocol.Identity
import Mathlib.Data.List.Basic

/-! Connection-bound device signatures (`pairing_auth.rs`). The curve is
outside the repository: an endpoint id stands for its key pair, and its
signatures are ideal. -/
namespace AltSendme

/-- What the engine uses of iroh's `EndpointId`: its text form and its ed25519
signatures. `verify` accepts exactly the signature made with the id's own key. -/
class EndpointKeys (Id : Type) where
  fromStr : String → Option Id
  toStr : Id → String
  sign : Id → List UInt8 → List UInt8
  verify : Id → List UInt8 → List UInt8 → Bool
  fromStr_toStr : ∀ id, fromStr (toStr id) = some id
  toStr_toLowercase : ∀ id, (toStr id).toLowercase = toStr id
  sign_length : ∀ id challenge, (sign id challenge).length = 64
  verify_iff : ∀ id challenge signature,
    verify id challenge signature = true ↔ signature = sign id challenge

namespace HexLower

/-- `HEXLOWER`'s alphabet. -/
def digit : Nat → Char
  | 0 => '0' | 1 => '1' | 2 => '2' | 3 => '3' | 4 => '4' | 5 => '5' | 6 => '6' | 7 => '7'
  | 8 => '8' | 9 => '9' | 10 => 'a' | 11 => 'b' | 12 => 'c' | 13 => 'd' | 14 => 'e' | _ => 'f'

def value (c : Char) : Option Nat :=
  if '0' ≤ c ∧ c ≤ '9' then some (c.toNat - 48)
  else if 'a' ≤ c ∧ c ≤ 'f' then some (c.toNat - 87)
  else none

def encodeChars (bytes : List UInt8) : List Char :=
  bytes.flatMap fun b => [digit (b.toNat / 16), digit (b.toNat % 16)]

def encode (bytes : List UInt8) : String := String.ofList (encodeChars bytes)

/-- An odd number of digits or a foreign character is a decoding error. -/
def decodeChars : List Char → Option (List UInt8)
  | [] => some []
  | [_] => none
  | hi :: lo :: rest => do
      let h ← value hi
      let l ← value lo
      let bytes ← decodeChars rest
      some (UInt8.ofNat (16 * h + l) :: bytes)

def decode (text : String) : Option (List UInt8) := decodeChars text.toList

theorem value_digit : ∀ n < 16, value (digit n) = some n := by decide

/-- Two digits for a byte, read back as that byte. -/
theorem decodeChars_encodeChars (bytes : List UInt8) :
    decodeChars (encodeChars bytes) = some bytes := by
  induction bytes with
  | nil => rfl
  | cons b rest ih =>
      have hb : b.toNat < 256 := b.toNat_lt
      have hHigh := value_digit (b.toNat / 16) (by omega)
      have hLow := value_digit (b.toNat % 16) (by omega)
      have hByte : 16 * (b.toNat / 16) + b.toNat % 16 = b.toNat := by omega
      change decodeChars (digit (b.toNat / 16) :: digit (b.toNat % 16) :: encodeChars rest) = _
      simp only [decodeChars, hHigh, hLow, ih, hByte, Option.bind_eq_bind, Option.bind_some,
        UInt8.ofNat_toNat]

/-- What was written in hexadecimal reads back. -/
@[simp] theorem decode_encode (bytes : List UInt8) : decode (encode bytes) = some bytes := by
  simp [decode, encode, decodeChars_encodeChars]

end HexLower

/-- `AUTH_LABEL`. -/
def authLabel : List UInt8 := "altsendme-device-auth-v1".toUTF8.toList

/-- `Signature::LENGTH`. -/
def signatureLength : Nat := 64

def deviceAuthChallenge (keyingMaterial : List UInt8) : List UInt8 :=
  authLabel ++ keyingMaterial

variable {Id : Type} [EndpointKeys Id]

/-- Sign with the secret key of `id`. -/
def signChallenge (id : Id) (keyingMaterial : List UInt8) : String :=
  HexLower.encode (EndpointKeys.sign id (deviceAuthChallenge keyingMaterial))

def verifyChallenge (endpointId : Id) (keyingMaterial : List UInt8) (signatureHex : String) :
    Bool :=
  match HexLower.decode signatureHex with
  | none => false
  | some sigBytes =>
      if sigBytes.length ≠ signatureLength then false
      else EndpointKeys.verify endpointId (deviceAuthChallenge keyingMaterial) sigBytes

@[simp] theorem fromStr_toStr (id : Id) :
    EndpointKeys.fromStr (EndpointKeys.toStr id) = some id := EndpointKeys.fromStr_toStr id

@[simp] theorem toStr_toLowercase (id : Id) :
    (EndpointKeys.toStr id).toLowercase = EndpointKeys.toStr id := EndpointKeys.toStr_toLowercase id

/-- No two ids are written alike. -/
theorem toStr_injective : Function.Injective (EndpointKeys.toStr : Id → String) := by
  intro left right h
  have hParsed := congrArg (EndpointKeys.fromStr : String → Option Id) h
  simpa using hParsed

@[simp] theorem toStr_inj {left right : Id} :
    EndpointKeys.toStr left = EndpointKeys.toStr right ↔ left = right :=
  toStr_injective.eq_iff

/-- Every device's own signature over the keying material verifies under its id. -/
@[simp] theorem verifyChallenge_signChallenge (id : Id) (keyingMaterial : List UInt8) :
    verifyChallenge id keyingMaterial (signChallenge id keyingMaterial) = true := by
  simp [verifyChallenge, signChallenge, signatureLength, EndpointKeys.sign_length,
    EndpointKeys.verify_iff]

end AltSendme
