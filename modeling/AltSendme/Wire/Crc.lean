import Mathlib.Data.BitVec
import Mathlib.Logic.Function.Iterate

/-! Reflected cyclic redundancy checks, for any width and any polynomial. The
register takes one message bit at a time; working through a whole word at once
and looking the result up in a table gives the same register. -/
namespace Crc

variable {w : Nat} (poly : BitVec w)

/-- One message bit enters the register, lowest bit first. -/
def shiftBit (register : BitVec w) (bit : Bool) : BitVec w :=
  if (register.getLsbD 0 ^^ bit) = true then poly ^^^ (register >>> 1) else register >>> 1

/-- The register moves on when no message bit is left to enter. -/
def step (register : BitVec w) : BitVec w := shiftBit poly register false

/-- The low `n` bits of a word, lowest first. -/
def lowBits (n : Nat) (x : BitVec w) : List Bool := (List.range n).map x.getLsbD

/-- A word whose low `n` bits are set. -/
def lowMask (n : Nat) : BitVec w := BitVec.ofNat w (2 ^ n - 1)

/-- The register after a message, from all ones, complemented. -/
def checksum (message : List Bool) : BitVec w :=
  ~~~(message.foldl (shiftBit poly) (BitVec.allOnes w))

theorem lowBits_succ (n : Nat) (x : BitVec w) :
    lowBits (n + 1) x = x.getLsbD 0 :: lowBits n (x >>> 1) := by
  rw [lowBits, List.range_succ_eq_map, List.map_cons, List.map_map, lowBits]
  congr 1
  apply List.map_congr_left
  intro i _
  rw [Function.comp_apply, BitVec.getLsbD_ushiftRight, Nat.succ_eq_add_one, Nat.add_comm]

/-- A wider register takes the same bits of a narrow word. -/
theorem lowBits_setWidth {v n : Nat} (h : n ≤ w) (x : BitVec v) :
    lowBits n (x.setWidth w) = lowBits n x := by
  apply List.map_congr_left
  intro i hi
  have hIn : i < w := lt_of_lt_of_le (List.mem_range.mp hi) h
  simp [hIn]

theorem step_xor (c x : BitVec w) :
    step poly (c ^^^ x) = shiftBit poly c (x.getLsbD 0) ^^^ (x >>> 1) := by
  simp only [step, shiftBit, BitVec.getLsbD_xor, BitVec.ushiftRight_xor_distrib, Bool.xor_false]
  split <;> simp only [BitVec.xor_assoc]

/-- A word can enter all at once: `n` steps of the sum take its low bits one by
one, and what is above them moves down. -/
theorem iterate_step_xor (n : Nat) (c x : BitVec w) :
    (step poly)^[n] (c ^^^ x) = (lowBits n x).foldl (shiftBit poly) c ^^^ (x >>> n) := by
  induction n generalizing c x with
  | zero => simp [lowBits]
  | succ n ih =>
      rw [Function.iterate_succ_apply, step_xor, ih, lowBits_succ, List.foldl_cons,
        ← BitVec.shiftRight_add, Nat.add_comm 1 n]

theorem lowBits_eq_replicate {n : Nat} {x : BitVec w} (h : ∀ i < n, x.getLsbD i = false) :
    lowBits n x = List.replicate n false := by
  rw [List.eq_replicate_iff]
  refine ⟨by simp [lowBits], ?_⟩
  intro bit hBit
  obtain ⟨i, hi, rfl⟩ := List.mem_map.mp hBit
  exact h i (List.mem_range.mp hi)

theorem foldl_replicate_false (n : Nat) (c : BitVec w) :
    (List.replicate n false).foldl (shiftBit poly) c = (step poly)^[n] c := by
  induction n generalizing c with
  | zero => rfl
  | succ n ih => rw [List.replicate_succ, List.foldl_cons, ih, Function.iterate_succ_apply]; rfl

theorem getLsbD_lowMask (n i : Nat) :
    (lowMask n : BitVec w).getLsbD i = (decide (i < w) && decide (i < n)) := by
  rw [lowMask, BitVec.getLsbD_ofNat, Nat.testBit_two_pow_sub_one]

/-- The low part of a register alone decides what is added; the rest moves down. -/
theorem iterate_step_eq (n : Nat) (c : BitVec w) :
    (step poly)^[n] c = (step poly)^[n] (c &&& lowMask n) ^^^ (c >>> n) := by
  have hSplit : c = (c &&& lowMask n) ^^^ (c &&& ~~~lowMask n) := by
    apply BitVec.eq_of_getLsbD_eq
    intro i hi
    rw [BitVec.getLsbD_xor, BitVec.getLsbD_and, BitVec.getLsbD_and, BitVec.getLsbD_not]
    cases c.getLsbD i <;> simp [hi]
  have hClear : ∀ i < n, (c &&& ~~~lowMask n).getLsbD i = false := by
    intro i hi
    simp [getLsbD_lowMask, hi]
  have hHigh : (c &&& ~~~lowMask n) >>> n = c >>> n := by
    apply BitVec.eq_of_getLsbD_eq
    intro i _
    rw [BitVec.getLsbD_ushiftRight, BitVec.getLsbD_ushiftRight, BitVec.getLsbD_and,
      BitVec.getLsbD_not, getLsbD_lowMask]
    cases hBit : c.getLsbD (n + i) with
    | false => rfl
    | true =>
        have hIn : n + i < w := BitVec.lt_of_getLsbD hBit
        simp [hIn]
  calc (step poly)^[n] c
      = (step poly)^[n] ((c &&& lowMask n) ^^^ (c &&& ~~~lowMask n)) := by rw [← hSplit]
    _ = (step poly)^[n] (c &&& lowMask n) ^^^ (c >>> n) := by
      rw [iterate_step_xor, lowBits_eq_replicate hClear, foldl_replicate_false, hHigh]

/-- Entering a word of `n` bits by the table of its sums with the low part of the
register. -/
theorem table_step {n : Nat} (c : BitVec w) {x : BitVec w}
    (hx : x >>> n = 0#w) :
    (step poly)^[n] ((c ^^^ x) &&& lowMask n) ^^^ (c >>> n) =
      (lowBits n x).foldl (shiftBit poly) c := by
  have hShift : (c ^^^ x) >>> n = c >>> n := by
    rw [BitVec.ushiftRight_xor_distrib, hx, BitVec.xor_zero]
  rw [← hShift, ← iterate_step_eq, iterate_step_xor, hx, BitVec.xor_zero]

end Crc
