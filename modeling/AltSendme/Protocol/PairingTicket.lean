import AltSendme.Protocol.Control
import AltSendme.Protocol.HexKeys
import AltSendme.Relay.PublicRelay
import AltSendme.Wire.Json

/-! The text of a pairing ticket: the bare endpoint id, or JSON where a relay
has to be named. Both are read by one decoder, JSON first. -/
namespace AltSendme
open Wire

inductive TicketError where
  | json
  | message (text : String)
  deriving DecidableEq, Repr

/-- `char::is_ascii_hexdigit` -/
def isAsciiHexdigit (c : Char) : Bool :=
  ('0' ≤ c && c ≤ '9') || ('a' ≤ c && c ≤ 'f') || ('A' ≤ c && c ≤ 'F')

/-- `str::len` counts bytes. -/
def isEndpointIdHex (s : String) : Bool := s.utf8ByteSize == 64 && s.toList.all isAsciiHexdigit

namespace PairingTicket

/-- `KIND` -/
def pairKind : String := "pair"

def defaultV : UInt32 := 1

def isV1 (v : UInt32) : Bool := v == 1

/-! `Serialize` and `Deserialize`, as the attributes of the fields have it. -/

def fields (ticket : PairingTicket) : List (String × Json) :=
  (if isV1 ticket.v then [] else [("v", .ofU32 ticket.v)]) ++
    ("kind", .string ticket.kind) :: ("endpoint_id", .string ticket.endpointId) ::
      match ticket.relayUrl with
      | none => []
      | some url => [("relay_url", .string url)]

def toJson (ticket : PairingTicket) : Json := .object ticket.fields

/-- Members of other names are passed over. -/
def visitMap (fields : List (String × Json)) : Option PairingTicket := do
  let v ← Json.readField "v" (some defaultV) Json.readU32 fields
  let kind ← Json.readField "kind" none Json.readString fields
  let endpointId ← Json.readField "endpoint_id" none Json.readString fields
  let relayUrl ← Json.readField "relay_url" (some none) (Json.readOption Json.readString) fields
  some ⟨v, kind, endpointId, relayUrl⟩

/-- An array holds the fields in their order; the last may be missing. -/
def visitSeq : List Json → Option PairingTicket
  | v :: kind :: endpointId :: rest => do
      let v ← Json.readU32 v
      let kind ← Json.readString kind
      let endpointId ← Json.readString endpointId
      match rest with
      | [] => some ⟨v, kind, endpointId, none⟩
      | [relayUrl] => do
          let relayUrl ← Json.readOption Json.readString relayUrl
          some ⟨v, kind, endpointId, relayUrl⟩
      | _ => none
  | _ => none

def fromJson : Json → Option PairingTicket
  | .object fields => visitMap fields
  | .array items => visitSeq items
  | _ => none

section
variable (serde : SerdeJson)

/-- `serde_json::from_str::<PairingTicket>` -/
def fromText (text : String) : Option PairingTicket := (serde.fromStr text).bind fromJson

def encode (ticket : PairingTicket) : Except TicketError String :=
  match pairingTicketRelayHint ticket.relayUrl with
  | none =>
      if isEndpointIdHex ticket.endpointId then .ok ticket.endpointId
      else .error (.message "invalid endpoint id")
  | some relayHint =>
      match serde.toString (toJson { ticket with relayUrl := some relayHint }) with
      | none => .error .json
      | some text => .ok text

variable {Id : Type} (fromStr : String → Option Id)

/-- `fromStr` is `EndpointId::from_str`. -/
def decode (s : String) : Except TicketError PairingTicket :=
  let trimmed := trim s
  match fromText serde trimmed with
  | some ticket =>
      if ticket.kind ≠ pairKind then .error (.message "not a pairing ticket")
      else if (fromStr ticket.endpointId).isNone then
        .error (.message "invalid endpoint id in pairing ticket")
      else .ok ticket
  | none =>
      if isEndpointIdHex trimmed then
        if (fromStr trimmed).isNone then .error (.message "invalid endpoint id in pairing ticket")
        else .ok ⟨1, pairKind, trimmed, none⟩
      else .error (.message "invalid pairing ticket")

end

/-- What is skipped when it is written is what is supplied when it is read. -/
theorem fromJson_toJson (ticket : PairingTicket) : fromJson ticket.toJson = some ticket := by
  obtain ⟨v, kind, endpointId, relayUrl⟩ := ticket
  rw [toJson, fromJson, visitMap]
  by_cases hV : v = 1
  · subst hV
    cases relayUrl with
    | none => simp [fields, isV1, defaultV, Json.readField_cons_of_ne, Json.readField_cons_self]
    | some url => simp [fields, isV1, defaultV, Json.readField_cons_of_ne, Json.readField_cons_self]
  · cases relayUrl with
    | none => simp [fields, isV1, hV, Json.readField_cons_of_ne, Json.readField_cons_self]
    | some url => simp [fields, isV1, hV, Json.readField_cons_of_ne, Json.readField_cons_self]

section
variable {serde : SerdeJson} {ticket : PairingTicket} {text : String}

/-- Only an object or an array is read as a ticket. -/
theorem bracket_of_fromText (hSerde : serde.Brackets) (h : fromText serde text = some ticket) :
    '{' ∈ text.toList ∨ '[' ∈ text.toList := by
  obtain ⟨value, hRead, hTicket⟩ := Option.bind_eq_some_iff.mp h
  cases value with
  | object fields => exact .inl (hSerde.fromStr_object hRead)
  | array items => exact .inr (hSerde.fromStr_array hRead)
  | null => cases hTicket
  | bool value => cases hTicket
  | integer value => cases hTicket
  | float digits => cases hTicket
  | string value => cases hTicket

theorem isAsciiHexdigit_of_mem (hHex : isEndpointIdHex text = true) {c : Char}
    (hc : c ∈ text.toList) : isAsciiHexdigit c = true := by
  rw [isEndpointIdHex, Bool.and_eq_true, List.all_eq_true] at hHex
  exact hHex.2 c hc

/-- A bare id is no ticket in JSON. -/
theorem fromText_of_isEndpointIdHex (hSerde : serde.Brackets)
    (hHex : isEndpointIdHex text = true) : fromText serde text = none := by
  cases hRead : fromText serde text with
  | none => rfl
  | some ticket =>
      rcases bracket_of_fromText hSerde hRead with hBrace | hBracket
      · exact absurd (isAsciiHexdigit_of_mem hHex hBrace) (by decide)
      · exact absurd (isAsciiHexdigit_of_mem hHex hBracket) (by decide)

theorem isWhitespace_of_isAsciiHexdigit {c : Char} (h : isAsciiHexdigit c = true) :
    isWhitespace c = false := by
  simp only [isAsciiHexdigit, Bool.or_eq_true, Bool.and_eq_true, decide_eq_true_eq] at h
  have hBounds : 48 ≤ c.toNat ∧ c.toNat ≤ 102 := by
    rcases h with (⟨hLow, hHigh⟩ | ⟨hLow, hHigh⟩) | ⟨hLow, hHigh⟩
    · have hLow : 48 ≤ c.toNat := UInt32.le_iff_toNat_le.mp hLow
      have hHigh : c.toNat ≤ 57 := UInt32.le_iff_toNat_le.mp hHigh
      omega
    · have hLow : 97 ≤ c.toNat := UInt32.le_iff_toNat_le.mp hLow
      have hHigh : c.toNat ≤ 102 := UInt32.le_iff_toNat_le.mp hHigh
      omega
    · have hLow : 65 ≤ c.toNat := UInt32.le_iff_toNat_le.mp hLow
      have hHigh : c.toNat ≤ 70 := UInt32.le_iff_toNat_le.mp hHigh
      omega
  simp only [isWhitespace, Bool.or_eq_false_iff, Bool.and_eq_false_iff, decide_eq_false_iff_not,
    List.contains_eq_mem, List.mem_cons, List.not_mem_nil, or_false]
  omega

/-- Padding of white space is all that is taken off a bare id, -/
theorem trim_padded_hex {before after : String}
    (hBefore : ∀ c ∈ before.toList, isWhitespace c = true)
    (hAfter : ∀ c ∈ after.toList, isWhitespace c = true) (hHex : isEndpointIdHex text = true) :
    trim (before ++ text ++ after) = text := by
  have hDigit : ∀ c ∈ text.toList, isWhitespace c = false := fun c hc =>
    isWhitespace_of_isAsciiHexdigit (isAsciiHexdigit_of_mem hHex hc)
  exact trim_padded hBefore hAfter (fun c hc => hDigit c (List.mem_of_head? hc))
    fun c hc => hDigit c (List.mem_of_getLast? hc)

/-- and off an object. -/
theorem trim_padded_object {before after : String} {body : List Char}
    (hBefore : ∀ c ∈ before.toList, isWhitespace c = true)
    (hAfter : ∀ c ∈ after.toList, isWhitespace c = true)
    (hText : text.toList = '{' :: body ++ ['}']) : trim (before ++ text ++ after) = text := by
  refine trim_padded hBefore hAfter ?_ ?_
  · intro c hc
    rw [hText] at hc
    obtain rfl : '{' = c := by simpa using hc
    decide
  · intro c hc
    rw [hText, List.getLast?_concat] at hc
    obtain rfl := Option.some.inj hc
    decide

end

section
variable {serde : SerdeJson} {Id : Type} {fromStr : String → Option Id}
variable {endpointId text : String} {relayUrl : Option String}

/-- What a joiner makes of a ticket that was read as JSON. -/
theorem decode_of_fromText {s : String} {ticket : PairingTicket}
    (hRead : fromText serde (trim s) = some ticket) (hKind : ticket.kind = pairKind)
    (hValid : (fromStr ticket.endpointId).isSome = true) :
    decode serde fromStr s = .ok ticket := by
  simp only [decode, hRead]
  rw [if_neg (not_not.mpr hKind), if_neg (by simpa [Option.isSome_iff_ne_none] using hValid)]

theorem decode_of_hex {s : String} (hSerde : serde.Brackets)
    (hHex : isEndpointIdHex (trim s) = true) (hValid : (fromStr (trim s)).isSome = true) :
    decode serde fromStr s = .ok ⟨1, pairKind, trim s, none⟩ := by
  simp only [decode, fromText_of_isEndpointIdHex hSerde hHex, hHex]
  rw [if_pos trivial, if_neg (by simpa [Option.isSome_iff_ne_none] using hValid)]

/-- A ticket survives its text and any white space around it, with the relay
that has to be named; the two formats are never taken for one another. -/
theorem ticket_survives_encoding (hSerde : serde.Brackets) (endpointId : String)
    (relayUrl : Option String) (hHex : isEndpointIdHex endpointId = true)
    (hValid : (fromStr endpointId).isSome = true)
    (hRoundTrip : serde.RoundTrips (toJson ⟨1, pairKind, endpointId, relayUrl⟩)) :
    (∃ text, encode serde ⟨1, pairKind, endpointId, relayUrl⟩ = .ok text ∧
      ∀ before after : String, (∀ c ∈ before.toList, isWhitespace c = true) →
        (∀ c ∈ after.toList, isWhitespace c = true) →
        decode serde fromStr (before ++ text ++ after) =
          .ok ⟨1, pairKind, endpointId, pairingTicketRelayHint relayUrl⟩) ∧
      (∀ text, isEndpointIdHex text = true → fromText serde text = none) ∧
      ∀ text ticket, fromText serde text = some ticket → isEndpointIdHex text = false := by
  refine ⟨?_, fun text => fromText_of_isEndpointIdHex hSerde, ?_⟩
  · cases hHint : pairingTicketRelayHint relayUrl with
    | none =>
        refine ⟨endpointId, ?_, ?_⟩
        · rw [encode, hHint]
          exact if_pos hHex
        · intro before after hBefore hAfter
          have hTrim := trim_padded_hex hBefore hAfter hHex
          rw [decode_of_hex hSerde (by rw [hTrim]; exact hHex) (by rw [hTrim]; exact hValid), hTrim]
    | some url =>
        -- a hint is the relay itself
        obtain rfl : relayUrl = some url := (Option.filter_eq_some_iff.mp hHint).1
        obtain ⟨text, hText, hRead⟩ := hRoundTrip
        refine ⟨text, ?_, ?_⟩
        · rw [encode, hHint]
          simp only [hText]
        · intro before after hBefore hAfter
          obtain ⟨body, hBody⟩ := hSerde.toString_object hText
          have hTicket : fromText serde text = some ⟨1, pairKind, endpointId, some url⟩ := by
            rw [fromText, hRead, Option.bind_some, fromJson_toJson]
          exact decode_of_fromText (by rw [trim_padded_object hBefore hAfter hBody, hTicket]) rfl
            hValid
  · intro text ticket hTicket
    cases hBare : isEndpointIdHex text with
    | false => rfl
    | true =>
        rw [fromText_of_isEndpointIdHex hSerde hBare] at hTicket
        cases hTicket

end

section
private def relayTicket : PairingTicket :=
  ⟨1, "pair", alice.text, some "https://relay.example.com/"⟩

private def quoted (text : String) : String := "\"" ++ text ++ "\""

private def threeMembers (key value key' value' key'' value'' : String) : String :=
  quoted key ++ ":" ++ quoted value ++ "," ++ quoted key' ++ ":" ++ quoted value' ++ "," ++
    quoted key'' ++ ":" ++ quoted value''

private def relayTicketText : String :=
  "\x7b" ++ threeMembers "kind" "pair" "endpoint_id" alice.text "relay_url"
    "https://relay.example.com/" ++ "\x7d"

/-- The writer at three members without escapes, the reader at one text. -/
private def smallSerde : SerdeJson where
  toString
    | .object [(key, .string value), (key', .string value'), (key'', .string value'')] =>
        some ("\x7b" ++ threeMembers key value key' value' key'' value'' ++ "\x7d")
    | _ => none
  fromStr text := if text = relayTicketText then some relayTicket.toJson else none

private theorem smallSerde_brackets : smallSerde.Brackets where
  toString_object := by
    intro fields text h
    simp only [smallSerde] at h
    split at h
    · obtain rfl := Option.some.inj h
      exact ⟨_, by simp only [String.toList_append]; rfl⟩
    · cases h
  fromStr_object := by
    intro text fields h
    simp only [smallSerde] at h
    split at h
    · next hText =>
        rw [hText, relayTicketText, String.toList_append, String.toList_append]
        exact List.mem_append_left _ (List.mem_append_left _ (by decide))
    · cases h
  fromStr_array := by
    intro text items h
    simp only [smallSerde] at h
    split at h
    · cases h
    · cases h

theorem ticket_survives_encoding_relay : ∃ text, encode smallSerde relayTicket = .ok text ∧
    decode smallSerde HexId.parse ("  " ++ text ++ "\n") = .ok relayTicket := by
  have hRoundTrip : smallSerde.RoundTrips relayTicket.toJson :=
    ⟨relayTicketText, rfl, by simp [smallSerde]⟩
  have hValid : (HexId.parse alice.text).isSome = true := by decide
  obtain ⟨⟨text, hText, hDecode⟩, -⟩ := ticket_survives_encoding smallSerde_brackets
    alice.text (some "https://relay.example.com/") (by decide) hValid hRoundTrip
  have hKept : pairingTicketRelayHint (some "https://relay.example.com/") =
      some "https://relay.example.com/" := by decide
  rw [hKept] at hDecode
  exact ⟨text, hText, hDecode _ _ (by simp [isWhitespace]) (by simp [isWhitespace])⟩

end

end PairingTicket
end AltSendme
