import AltSendme.Protocol.PairingAuth

/-! Endpoint ids in the text form the program prints and parses: 64 lowercase
hex digits. The laws of `EndpointKeys` hold here, so every result over it
applies to something; the signature is a stand-in for the curve's. -/
namespace AltSendme

/-- The digits of an endpoint id. -/
structure HexId where
  text : String
  length_eq : text.length = 64
  isHex : text.toList.all (fun c => (HexLower.value c).isSome) = true
  deriving DecidableEq

namespace HexId

/-- A digit of the alphabet has no lowercase form but itself. -/
theorem toLower_of_value {c : Char} (h : (HexLower.value c).isSome = true) : c.toLower = c := by
  unfold HexLower.value at h
  unfold Char.toLower
  rw [dif_neg]
  rintro ⟨hGe, hLe⟩
  have hLow : 65 ≤ c.val.toNat := UInt32.le_iff_toNat_le.mp hGe
  have hHigh : c.val.toNat ≤ 90 := UInt32.le_iff_toNat_le.mp hLe
  split at h
  · next hDigit =>
      have hTop : c.val.toNat ≤ 57 := UInt32.le_iff_toNat_le.mp hDigit.2
      omega
  · split at h
    · next hLetter =>
        have hBottom : 97 ≤ c.val.toNat := UInt32.le_iff_toNat_le.mp hLetter.1
        omega
    · cases h

theorem text_toLowercase (id : HexId) : id.text.toLowercase = id.text := by
  have hDigits := List.all_eq_true.mp id.isHex
  rw [String.toLowercase,
    List.map_congr_left fun c hc => toLower_of_value (hDigits c hc), List.map_id', String.ofList_toList]

def parse (text : String) : Option HexId :=
  if h : text.length = 64 ∧ text.toList.all (fun c => (HexLower.value c).isSome) = true then
    some ⟨text, h.1, h.2⟩
  else none

/-- 64 bytes that depend on every digit of the id and every byte signed. -/
def sign (id : HexId) (challenge : List UInt8) : List UInt8 :=
  id.text.toList.map fun c => UInt8.ofNat c.toNat + challenge.foldl (fun acc b => 31 * acc + b) 7

instance : EndpointKeys HexId where
  fromStr := parse
  toStr := text
  sign := sign
  verify := fun id challenge signature => signature == sign id challenge
  fromStr_toStr := by
    intro id
    simp only [parse, id.length_eq, id.isHex, and_self, dif_pos]
  toStr_toLowercase := text_toLowercase
  sign_length := by
    intro id challenge
    rw [sign, List.length_map, String.length_toList, id.length_eq]
  verify_iff := by
    intro id challenge signature
    exact beq_iff_eq

end HexId

/-! Three devices. -/

def alice : HexId :=
  ⟨"d75a980182b10ab7d54bfed3c964073a0ee172f3daa62325af021a68f707511a", by decide, by decide⟩

def bob : HexId :=
  ⟨"3d4017c3e843895a92b70aa74d1b7ebc9c982ccf2ec4968cc0cd55f12af4660c", by decide, by decide⟩

def mallory : HexId :=
  ⟨"fc51cd8e6218a1a38da47ed00230f0580816ed13ba3303ac5deb911548908025", by decide, by decide⟩

end AltSendme
