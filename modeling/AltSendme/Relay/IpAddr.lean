import Mathlib.Data.List.Basic

/-! The text forms of an IP address, read as `std::net` reads them: each reader
takes what it can off the front of the input and leaves the rest. -/
namespace IpText

inductive IpAddr where
  | v4 (octets : List Nat)
  | v6 (segments : List Nat)
  deriving DecidableEq, Repr

/-- 127.0.0.0/8, and `::1` alone of the longer ones. -/
def IpAddr.isLoopback : IpAddr → Bool
  | .v4 octets => octets.head? = some 127
  | .v6 segments => segments = [0, 0, 0, 0, 0, 0, 0, 1]

/-- The value of a digit, in any radix up to sixteen. -/
def toDigit (radix : Nat) (c : Char) : Option Nat :=
  let digit :=
    if '0' ≤ c ∧ c ≤ '9' then some (c.toNat - '0'.toNat)
    else if 'a' ≤ c ∧ c ≤ 'f' then some (c.toNat - 'a'.toNat + 10)
    else if 'A' ≤ c ∧ c ≤ 'F' then some (c.toNat - 'A'.toNat + 10)
    else none
  digit.filter (· < radix)

def readDigits (radix : Nat) : List Char → List Nat × List Char
  | [] => ([], [])
  | c :: rest =>
      match toDigit radix c with
      | none => ([], c :: rest)
      | some d => let (ds, tail) := readDigits radix rest; (d :: ds, tail)

def readNumber (radix maxDigits : Nat) (allowZeroPrefix : Bool) (bound : Nat)
    (input : List Char) : Option (Nat × List Char) :=
  let (digits, rest) := readDigits radix input
  let value := digits.foldl (fun n d => n * radix + d) 0
  if digits = [] ∨ maxDigits < digits.length then none
  else if !allowZeroPrefix ∧ digits.head? = some 0 ∧ 1 < digits.length then none
  else if value < bound then some (value, rest) else none

def readGivenChar (c : Char) : List Char → Option (List Char)
  | [] => none
  | d :: rest => if d = c then some rest else none

/-- Every item but the first follows a separator. -/
def readSeparator {α : Type} (sep : Char) (first : Bool)
    (inner : List Char → Option (α × List Char)) (input : List Char) : Option (α × List Char) :=
  if first then inner input else (readGivenChar sep input).bind inner

def readOctets : (count : Nat) → (first : Bool) → List Char → Option (List Nat × List Char)
  | 0, _, input => some ([], input)
  | count + 1, first, input =>
      (readSeparator '.' first (readNumber 10 3 false 256) input).bind fun (octet, rest) =>
        (readOctets count false rest).map fun (octets, tail) => (octet :: octets, tail)

def readIpv4Addr (input : List Char) : Option (List Nat × List Char) := readOctets 4 true input

/-- The two groups that an IPv4 address at the end stands for. -/
def groupsOf : List Nat → List Nat
  | [a, b, c, d] => [a * 256 + b, c * 256 + d]
  | _ => []

/-- At most `left` groups, and whether the last two were an IPv4 address. -/
def readGroups : (left : Nat) → (first : Bool) → List Char → List Nat × Bool × List Char
  | 0, _, input => ([], false, input)
  | left + 1, first, input =>
      let ipv4 := if 0 < left then readSeparator ':' first readIpv4Addr input else none
      match ipv4 with
      | some (octets, rest) => (groupsOf octets, true, rest)
      | none =>
          match readSeparator ':' first (readNumber 16 4 true 65536) input with
          | none => ([], false, input)
          | some (group, rest) =>
              let (groups, embedded, tail) := readGroups left false rest
              (group :: groups, embedded, tail)

/-- Eight groups, or fewer around one `::` that stands for at least one zero. -/
def readIpv6Addr (input : List Char) : Option (List Nat × List Char) :=
  let (head, embedded, rest) := readGroups 8 true input
  if head.length = 8 then some (head, rest)
  else if embedded then none
  else
    (readGivenChar ':' rest).bind fun rest =>
      (readGivenChar ':' rest).map fun rest =>
        let (tail, _, rest) := readGroups (8 - (head.length + 1)) true rest
        (head ++ List.replicate (8 - (head.length + tail.length)) 0 ++ tail, rest)

/-- Nothing may follow the address. -/
def IpAddr.parse (text : String) : Option IpAddr :=
  match readIpv4Addr text.toList with
  | some (octets, rest) => if rest = [] then some (.v4 octets) else none
  | none =>
      match readIpv6Addr text.toList with
      | some (segments, rest) => if rest = [] then some (.v6 segments) else none
      | none => none

/-! An IPv4 address has one text form, and no form of any address starts with a bracket. -/

/-- The text form of an IPv4 address. -/
def dotted (octets : List Nat) : List Char :=
  List.intercalate ['.'] (octets.map (Nat.toDigits 10))

theorem toDigit_ten {c : Char} {d : Nat} (h : toDigit 10 c = some d) :
    d < 10 ∧ c = Nat.digitChar d := by
  simp only [toDigit, Option.filter_eq_some_iff, decide_eq_true_eq] at h
  obtain ⟨hDigit, hLt⟩ := h
  refine ⟨hLt, ?_⟩
  split at hDigit
  · next hRange =>
    obtain rfl := Option.some.inj hDigit
    have hLow : '0'.toNat ≤ c.toNat := hRange.1
    apply Char.toNat_inj.mp
    rw [Nat.toNat_digitChar_of_lt_ten hLt]
    exact (Nat.add_sub_cancel' hLow).symm
  · split at hDigit
    · obtain rfl := Option.some.inj hDigit
      omega
    · split at hDigit
      · obtain rfl := Option.some.inj hDigit
        omega
      · cases hDigit

/-- The digits read are those of the characters taken. -/
theorem readDigits_ten {input rest : List Char} {digits : List Nat}
    (h : readDigits 10 input = (digits, rest)) :
    input = digits.map Nat.digitChar ++ rest ∧ ∀ d ∈ digits, d < 10 := by
  induction input generalizing digits rest with
  | nil =>
      cases h
      exact ⟨rfl, nofun⟩
  | cons c tail ih =>
      rw [readDigits] at h
      cases hDigit : toDigit 10 c with
      | none =>
          rw [hDigit] at h
          cases h
          exact ⟨rfl, nofun⟩
      | some d =>
          rw [hDigit] at h
          cases hRest : readDigits 10 tail with
          | mk ds left =>
              rw [hRest] at h
              cases h
              obtain ⟨hLt, rfl⟩ := toDigit_ten hDigit
              obtain ⟨rfl, hAll⟩ := ih hRest
              exact ⟨rfl, List.forall_mem_cons.mpr ⟨hLt, hAll⟩⟩

/-- Digits after a number that is not zero continue its decimal form. -/
theorem toDigits_foldl {n : Nat} (hPos : 0 < n) {digits : List Nat}
    (hDigits : ∀ d ∈ digits, d < 10) :
    Nat.toDigits 10 n ++ digits.map Nat.digitChar =
      Nat.toDigits 10 (digits.foldl (fun n d => n * 10 + d) n) := by
  induction digits generalizing n with
  | nil => simp
  | cons d ds ih =>
      obtain ⟨hLt, hRest⟩ := List.forall_mem_cons.mp hDigits
      have hStep : Nat.toDigits 10 n ++ [Nat.digitChar d] = Nat.toDigits 10 (n * 10 + d) := by
        rw [← Nat.toDigits_of_lt_base hLt, Nat.toDigits_append_toDigits (by decide) hPos hLt,
          Nat.mul_comm]
      calc Nat.toDigits 10 n ++ (d :: ds).map Nat.digitChar
          = (Nat.toDigits 10 n ++ [Nat.digitChar d]) ++ ds.map Nat.digitChar := by simp
        _ = Nat.toDigits 10 (n * 10 + d) ++ ds.map Nat.digitChar := by rw [hStep]
        _ = _ := ih (by omega) hRest

/-- Without leading zeros a number has one decimal form. -/
theorem readNumber_ten {maxDigits bound n : Nat} {input rest : List Char}
    (h : readNumber 10 maxDigits false bound input = some (n, rest)) :
    n < bound ∧ input = Nat.toDigits 10 n ++ rest := by
  rw [readNumber] at h
  cases hRead : readDigits 10 input with
  | mk digits left =>
      obtain ⟨rfl, hDigits⟩ := readDigits_ten hRead
      simp only [hRead] at h
      split at h
      · cases h
      next hSome =>
      split at h
      · cases h
      next hLeading =>
      split at h
      · next hBound =>
        obtain ⟨rfl, rfl⟩ := Prod.mk.inj (Option.some.inj h)
        refine ⟨hBound, ?_⟩
        congr 1
        cases digits with
        | nil => exact absurd (Or.inl rfl) hSome
        | cons d ds =>
            obtain ⟨hLt, hRest⟩ := List.forall_mem_cons.mp hDigits
            by_cases hZero : d = 0
            · subst hZero
              have hAlone : ds = [] := by
                by_contra hMore
                have hLength := List.length_pos_iff.mpr hMore
                exact hLeading (by simpa using hLength)
              subst hAlone
              rfl
            · have hStart := toDigits_foldl (Nat.pos_of_ne_zero hZero) hRest
              rw [Nat.toDigits_of_lt_base hLt] at hStart
              simpa using hStart
      · cases h

theorem readSeparator_false {α : Type} {sep : Char} {inner : List Char → Option (α × List Char)}
    {input : List Char} {result : α × List Char}
    (h : readSeparator sep false inner input = some result) :
    ∃ rest, input = sep :: rest ∧ inner rest = some result := by
  simp only [readSeparator, Bool.false_eq_true, if_false, Option.bind_eq_some_iff] at h
  obtain ⟨rest, hSep, hInner⟩ := h
  cases input with
  | nil => cases hSep
  | cons c tail =>
      simp only [readGivenChar, Option.ite_none_right_eq_some, Option.some.injEq] at hSep
      obtain ⟨rfl, rfl⟩ := hSep
      exact ⟨tail, rfl, hInner⟩

theorem readOctets_more {count : Nat} {input rest : List Char} {octets : List Nat}
    (h : readOctets count false input = some (octets, rest)) :
    octets.length = count ∧ (∀ octet ∈ octets, octet < 256) ∧
      input = octets.flatMap (fun octet => '.' :: Nat.toDigits 10 octet) ++ rest := by
  induction count generalizing input octets rest with
  | zero =>
      cases h
      exact ⟨rfl, nofun, rfl⟩
  | succ count ih =>
      simp only [readOctets, Option.bind_eq_some_iff, Option.map_eq_some_iff, Prod.mk.injEq,
        Prod.exists] at h
      obtain ⟨octet, left, hFirst, others, tail, hRest, rfl, rfl⟩ := h
      obtain ⟨after, rfl, hOctet⟩ := readSeparator_false hFirst
      obtain ⟨hBound, rfl⟩ := readNumber_ten hOctet
      obtain ⟨hLength, hAll, rfl⟩ := ih hRest
      refine ⟨congrArg (· + 1) hLength, List.forall_mem_cons.mpr ⟨hBound, hAll⟩, ?_⟩
      simp [List.append_assoc]

theorem readIpv4Addr_eq_some {input rest : List Char} {octets : List Nat}
    (h : readIpv4Addr input = some (octets, rest)) :
    octets.length = 4 ∧ (∀ octet ∈ octets, octet < 256) ∧ input = dotted octets ++ rest := by
  simp only [readIpv4Addr, readOctets, Option.bind_eq_some_iff, Prod.exists] at h
  obtain ⟨octet, left, hFirst, hMore⟩ := h
  obtain ⟨⟨others, tail⟩, hRest, hEq⟩ := Option.map_eq_some_iff.mp hMore
  obtain ⟨rfl, rfl⟩ := Prod.mk.inj hEq
  obtain ⟨hBound, rfl⟩ := readNumber_ten hFirst
  obtain ⟨hLength, hAll, rfl⟩ := @readOctets_more 3 _ _ _ hRest
  refine ⟨congrArg (· + 1) hLength, List.forall_mem_cons.mpr ⟨hBound, hAll⟩, ?_⟩
  obtain ⟨b, c, d, rfl⟩ := List.length_eq_three.mp hLength
  simp [dotted, List.intercalate, List.intersperse]

/-- The text of an IPv4 address is its dotted form. -/
theorem parse_eq_v4 {text : String} {octets : List Nat} (h : IpAddr.parse text = some (.v4 octets)) :
    octets.length = 4 ∧ (∀ octet ∈ octets, octet < 256) ∧ text.toList = dotted octets := by
  rw [IpAddr.parse] at h
  split at h
  · next read rest hRead =>
    simp only [Option.ite_none_right_eq_some, Option.some.injEq, IpAddr.v4.injEq] at h
    obtain ⟨rfl, rfl⟩ := h
    obtain ⟨hLength, hAll, hText⟩ := readIpv4Addr_eq_some hRead
    exact ⟨hLength, hAll, hText.trans (List.append_nil _)⟩
  · split at h
    · split at h <;> cases h
    · cases h

/-- An address in brackets is none. -/
theorem parse_bracket {text : String} {rest : List Char} (h : text.toList = '[' :: rest) :
    IpAddr.parse text = none := by
  have hTen : toDigit 10 '[' = none := by decide
  have hSixteen : toDigit 16 '[' = none := by decide
  simp [IpAddr.parse, h, readIpv4Addr, readIpv6Addr, readOctets, readGroups, readSeparator,
    readNumber, readDigits, readGivenChar, hTen, hSixteen]

end IpText
