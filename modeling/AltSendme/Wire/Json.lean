import Mathlib.Data.Option.Basic
import Mathlib.Algebra.Ring.Int.Defs

/-! JSON documents, and a library that writes and reads them as a parameter:
its laws are the few facts about the text that its callers rely on. A field of
a record is read off an object as a derived reader does it. -/
namespace Wire

/-- A document as a typed reader comes upon it. Objects keep every member, in
order; `float` is any number that is not an integer of the reader. -/
inductive Json where
  | null
  | bool (value : Bool)
  | integer (value : Int)
  | float (text : String)
  | string (value : String)
  | array (items : List Json)
  | object (fields : List (String × Json))

/-- Writing and reading text. `none` is a failure. -/
structure SerdeJson where
  toString : Json → Option String
  fromStr : String → Option Json

/-- Objects and arrays stand in their brackets. -/
structure SerdeJson.Brackets (serde : SerdeJson) : Prop where
  toString_object : ∀ {fields text}, serde.toString (.object fields) = some text →
    ∃ body, text.toList = '{' :: body ++ ['}']
  fromStr_object : ∀ {text fields}, serde.fromStr text = some (.object fields) → '{' ∈ text.toList
  fromStr_array : ∀ {text items}, serde.fromStr text = some (.array items) → '[' ∈ text.toList

/-- `value` is written, and read back from what was written. -/
def SerdeJson.RoundTrips (serde : SerdeJson) (value : Json) : Prop :=
  ∃ text, serde.toString value = some text ∧ serde.fromStr text = some value

namespace Json
universe u
variable {α : Type u}

/-- The member of a name: `absent` where there is none, nothing where there
are several. -/
def readField (name : String) (absent : Option α) (read : Json → Option α)
    (fields : List (String × Json)) : Option α :=
  match fields.filter fun field => field.1 == name with
  | [] => absent
  | [field] => read field.2
  | _ => none

def readString : Json → Option String
  | .string value => some value
  | _ => none

def readU32 : Json → Option UInt32
  | .integer value =>
      if 0 ≤ value ∧ value < 2 ^ 32 then some (UInt32.ofNat value.toNat) else none
  | _ => none

/-- `null` is `None`. -/
def readOption (read : Json → Option α) : Json → Option (Option α)
  | .null => some none
  | value => (read value).map some

def ofU32 (n : UInt32) : Json := .integer n.toNat

@[simp] theorem readString_string (value : String) : readString (.string value) = some value := rfl

@[simp] theorem readOption_string (value : String) :
    readOption readString (.string value) = some (some value) := rfl

@[simp] theorem readU32_ofU32 (n : UInt32) : readU32 (ofU32 n) = some n := by
  have hBound : n.toNat < 2 ^ 32 := n.toNat_lt
  rw [ofU32, readU32, if_pos (by omega), Int.toNat_natCast, UInt32.ofNat_toNat]

section
variable {name : String} {absent : Option α} {read : Json → Option α}
variable {key : String} {value : Json} {fields : List (String × Json)}

@[simp] theorem readField_nil : readField name absent read [] = absent := rfl

/-- The other members are passed over. -/
theorem readField_cons_of_ne (h : key ≠ name) :
    readField name absent read ((key, value) :: fields) = readField name absent read fields := by
  rw [readField, List.filter_cons_of_neg (by simpa using h)]
  rfl

/-- The first member of a name is the one, where the rest has none. -/
theorem readField_cons_self (h : ∀ field ∈ fields, field.1 ≠ name) :
    readField name absent read ((name, value) :: fields) = read value := by
  have hRest : fields.filter (fun field => field.1 == name) = [] :=
    List.filter_eq_nil_iff.mpr fun field hField => by simpa using h field hField
  rw [readField, List.filter_cons_of_pos (by simp), hRest]

end
end Json
end Wire
