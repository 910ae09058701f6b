import Mathlib

/-! Single-precision quotients of whole numbers. The numbers are those of the
`Float32` model of the core library, rounding included. -/
namespace Binary32
open Float.Model Float.Model.UnpackedFloat

/-- A number other than zero, the infinities and the undefined one. -/
def Finite (f : Float32.Model) : Prop :=
  ∃ sign mantissa exponent, ∃ h : 0 < mantissa, f.unpack = .finite sign mantissa exponent h

section Rounding

theorem mantissa_shift (em : ExtendedMantissa) (k : Nat) :
    (em >>> k).mantissa = em.mantissa / 2 ^ k := by
  induction k generalizing em with
  | zero => simp [HShiftRight.hShiftRight, Nat.repeat]
  | succ k ih =>
      show (em >>> k).shiftRightOne.mantissa = _
      rw [ExtendedMantissa.shiftRightOne, ih, Nat.div_div_eq_div_mul, Nat.pow_succ]

theorem roundToNearestEven_bounds (mantissa : Nat) (accuracy : Accuracy) :
    mantissa ≤ accuracy.roundToNearestEven mantissa ∧
      accuracy.roundToNearestEven mantissa ≤ mantissa + 1 := by
  cases accuracy with
  | exact => simp [Accuracy.roundToNearestEven]
  | inexact rest =>
      cases rest with
      | lt => simp [Accuracy.roundToNearestEven]
      | eq =>
          have hParity : mantissa % 2 < 2 := Nat.mod_lt _ (by decide)
          simp only [Accuracy.roundToNearestEven]
          omega
      | gt => simp [Accuracy.roundToNearestEven]

/-- The exponent a number asks for while it is far above the smallest one. -/
theorem targetExponent_eq {mantissa : Nat} {exponent : Int}
    (h : -125 ≤ (mantissa.log2 : Int) + exponent) :
    Format.binary32.targetExponent (totalExponent mantissa exponent) =
      (mantissa.log2 : Int) + exponent - 23 := by
  have hBits : Format.binary32.mantissaBits = 24 := rfl
  have hMin : Format.binary32.minExponent = -149 := rfl
  simp only [Format.targetExponent, totalExponent, hBits, hMin]
  omega

/-- What shifting to the exponent asked for leaves of a mantissa. -/
theorem shiftToTargetExponent_eq {mantissa : Nat} {exponent : Int}
    (h : -125 ≤ (mantissa.log2 : Int) + exponent) :
    (shiftToTargetExponent Format.binary32 mantissa exponent .exact).1.mantissa =
        mantissa / 2 ^ (mantissa.log2 - 23) ∧
      (shiftToTargetExponent Format.binary32 mantissa exponent .exact).2 =
        exponent + (mantissa.log2 - 23 : Nat) := by
  have hShift : ((mantissa.log2 : Int) + exponent - 23 - exponent).toNat = mantissa.log2 - 23 := by
    omega
  constructor
  · rw [shiftToTargetExponent, shiftToExponent, targetExponent_eq h]
    simp only [mantissa_shift, ExtendedMantissa.ofMantissaAndAccuracy, hShift]
  · rw [shiftToTargetExponent, shiftToExponent, targetExponent_eq h]
    simp only [hShift]

theorem log2_eq {n k : Nat} (hLow : 2 ^ k ≤ n) (hHigh : n < 2 ^ (k + 1)) : n.log2 = k := by
  have hPos : n ≠ 0 := Nat.ne_of_gt (Nat.lt_of_lt_of_le (Nat.two_pow_pos k) hLow)
  exact (Nat.log2_eq_iff hPos).mpr ⟨hLow, hHigh⟩

/-- A mantissa with enough bits is rounded to one of 24 bits. -/
theorem roundWithAccuracy_eq {sign : Sign} {mantissa : Nat} {exponent : Int}
    (hBits : 23 ≤ mantissa.log2) (hExponent : -125 ≤ exponent) :
    ∃ m e, ∃ h : 0 < m,
      roundWithAccuracy Format.binary32 sign mantissa exponent .exact = .finite sign m e h ∧
        m.log2 = 23 ∧ exponent ≤ e ∧ e ≤ exponent + mantissa.log2 - 22 := by
  obtain ⟨hFirst, hAt⟩ := @shiftToTargetExponent_eq mantissa exponent (by omega)
  rw [roundWithAccuracy]
  generalize shiftToTargetExponent Format.binary32 mantissa exponent .exact = shifted at hFirst hAt
  obtain ⟨em, e₁⟩ := shifted
  simp only at hFirst hAt ⊢
  have hNonzero : mantissa ≠ 0 := by
    rintro rfl
    simp at hBits
  -- the 24 bits before rounding
  have hLow : 2 ^ 23 ≤ em.mantissa := by
    rw [hFirst, Nat.le_div_iff_mul_le (Nat.two_pow_pos _), ← Nat.pow_add,
      Nat.add_sub_cancel' hBits]
    exact Nat.log2_self_le hNonzero
  have hHigh : em.mantissa < 2 ^ 24 := by
    rw [hFirst, Nat.div_lt_iff_lt_mul (Nat.two_pow_pos _), ← Nat.pow_add]
    have hExact : 24 + (mantissa.log2 - 23) = mantissa.log2 + 1 := by omega
    rw [hExact]
    exact Nat.lt_log2_self
  have hRounded := roundToNearestEven_bounds em.mantissa em.accuracy
  rw [← ExtendedMantissa.roundedMantissa] at hRounded
  by_cases hCarry : em.roundedMantissa = 2 ^ 24
  · have hLog : (2 ^ 24 : Nat).log2 = 24 := Nat.log2_two_pow
    obtain ⟨hSecond, hLast⟩ := @shiftToTargetExponent_eq (2 ^ 24) e₁ (by omega)
    rw [hLog] at hSecond hLast
    have hValue : (2 ^ 24 : Nat) / 2 ^ (24 - 23) = 2 ^ 23 := rfl
    rw [hValue] at hSecond
    refine ⟨2 ^ 23, e₁ + 1, by decide, ?_, Nat.log2_two_pow, by omega, by omega⟩
    rw [hCarry, dif_neg (by rw [hSecond]; decide)]
    simp only [hSecond, hLast]
    rfl
  · have hLog : em.roundedMantissa.log2 = 23 := log2_eq (by omega) (by omega)
    obtain ⟨hSecond, hLast⟩ := @shiftToTargetExponent_eq em.roundedMantissa e₁ (by omega)
    rw [hLog] at hSecond hLast
    simp only [Nat.sub_self, Nat.pow_zero, Nat.div_one, Nat.cast_zero, Int.add_zero]
      at hSecond hLast
    refine ⟨em.roundedMantissa, e₁, by omega, ?_, hLog, by omega, by omega⟩
    rw [dif_neg (by rw [hSecond]; omega)]
    simp only [hSecond, hLast]

/-- Whole numbers of up to 64 bits are neither too small nor too large. -/
theorem round_eq {sign : Sign} {n : Nat} (hPos : 0 < n) (hBits : n.log2 ≤ 64) :
    ∃ m e, ∃ h : 0 < m, UnpackedFloat.round Format.binary32 sign n 0 = .finite sign m e h ∧
      m.log2 = 23 ∧ -23 ≤ e ∧ e ≤ 42 := by
  have hTarget := @targetExponent_eq n 0 (by omega)
  have hShift : (0 - ((n.log2 : Int) + 0 - 23)).toNat = 23 - n.log2 := by omega
  have hLog : (n <<< (23 - n.log2)).log2 = n.log2 + (23 - n.log2) := by
    rw [Nat.shiftLeft_eq]
    refine log2_eq ?_ ?_
    · rw [Nat.pow_add]
      exact Nat.mul_le_mul_right _ (Nat.log2_self_le (Nat.ne_of_gt hPos))
    · rw [Nat.add_right_comm, Nat.pow_add]
      exact Nat.mul_lt_mul_of_pos_right Nat.lt_log2_self (Nat.two_pow_pos _)
  obtain ⟨m, e, h, hRound, hm, hLow, hHigh⟩ :=
    @roundWithAccuracy_eq sign (n <<< (23 - n.log2)) (0 - (23 - n.log2 : Nat)) (by omega) (by omega)
  refine ⟨m, e, h, ?_, hm, by omega, by omega⟩
  rw [UnpackedFloat.round, hTarget, decreaseExponent]
  simp only [hShift]
  exact hRound

end Rounding

section Numbers

/-- A number of 24 bits whose exponent the format can hold comes back finite. -/
theorem finite_pack {sign : Sign} {m : Nat} {e : Int} (h : 0 < m) (hLog : m.log2 = 23)
    (hLow : -149 ≤ e) (hHigh : e ≤ 104) : Finite (Float32.Model.pack (.finite sign m e h)) := by
  let biased := (e + 127 + 23).toNat
  have hSmall : ¬2 ^ 8 ≤ biased + 1 := by
    have : biased = (e + 127 + 23).toNat := rfl
    omega
  have hPositive : 0 < biased := by
    have : biased = (e + 127 + 23).toNat := rfl
    omega
  have hPacked : UnpackedFloat.pack Format.binary32 (.finite sign m e h) =
      packComponents Format.binary32 sign (BitVec.ofNat 8 biased) (BitVec.ofNat 23 m) := by
    rw [UnpackedFloat.pack]
    simp only [hLog]
    exact (if_neg hSmall).trans (if_pos rfl)
  have hExponent : (BitVec.ofNat 8 biased).toNat = biased :=
    Nat.mod_eq_of_lt (by omega)
  have hNotAll : BitVec.ofNat 8 biased ≠ -1#8 := by
    intro hEq
    rw [hEq] at hExponent
    have : (-1#8).toNat = 255 := rfl
    omega
  have hNotZero : BitVec.ofNat 8 biased ≠ 0#8 := by
    intro hEq
    rw [hEq] at hExponent
    have : (0#8).toNat = 0 := rfl
    omega
  have hUnpack : (Float32.Model.pack (.finite sign m e h)).unpack =
      UnpackedFloat.unpack Format.binary32
        (packComponents Format.binary32 sign (BitVec.ofNat 8 biased) (BitVec.ofNat 23 m)) := by
    rw [← hPacked]
    rfl
  rw [Finite, hUnpack, UnpackedFloat.unpack]
  simp only [unpackExponent_packComponents, hNotAll, hNotZero, if_false]
  have hTop : ∀ v : BitVec 23, 0 < (1#1 ++ v).toNat := by
    intro v
    rw [BitVec.toNat_append]
    exact Nat.lt_of_lt_of_le (by decide) Nat.left_le_or
  exact ⟨_, _, _, hTop _, rfl⟩

/-- A whole number other than zero that fits 64 bits. -/
theorem finite_ofInt {n : Int} (hNonzero : n ≠ 0) (hBits : n.natAbs < 2 ^ 64) :
    Finite (Float32.Model.ofInt n) := by
  have hPos : 0 < n.natAbs := Int.natAbs_pos.mpr hNonzero
  have hLog : n.natAbs.log2 ≤ 64 := Nat.le_of_lt ((Nat.log2_lt (Nat.ne_of_gt hPos)).mpr hBits)
  have hNormal : ∃ sign,
      UnpackedFloat.ofInt Format.binary32 n =
        UnpackedFloat.round Format.binary32 sign n.natAbs 0 := by
    rw [UnpackedFloat.ofInt, UnpackedFloat.normalize]
    rcases Int.lt_trichotomy n 0 with hNeg | hZero | hPos
    · refine ⟨.negative, ?_⟩
      rw [Int.compare_eq_lt.mpr hNeg]
      have : (-n).toNat = n.natAbs := by omega
      simp only [this]
    · exact absurd hZero hNonzero
    · refine ⟨.positive, ?_⟩
      rw [Int.compare_eq_gt.mpr hPos]
      have : n.toNat = n.natAbs := by omega
      simp only [this]
  obtain ⟨sign, hSign⟩ := hNormal
  obtain ⟨m, e, h, hRound, hm, hLow, hHigh⟩ := @round_eq sign n.natAbs hPos hLog
  rw [Float32.Model.ofInt, hSign, hRound]
  exact finite_pack h hm (by omega) (by omega)

theorem unpack_zero : (Float32.Model.ofInt 0).unpack = .zero .positive := rfl

/-- A finite number divided by itself. -/
theorem div_self {f : Float32.Model} (h : Finite f) : f / f = Float32.Model.ofInt 1 := by
  obtain ⟨sign, mantissa, exponent, hPos, hFinite⟩ := h
  have hSign : sign / sign = .positive := by cases sign <;> rfl
  have hTotal : totalExponent mantissa exponent - totalExponent mantissa exponent = 0 :=
    Int.sub_self _
  have hTarget : min (exponent - exponent) (Format.binary32.targetExponent 0) = -24 := by
    rw [Int.sub_self]
    rfl
  have hShift : (exponent - exponent - (-24)).toNat = 24 := by
    rw [Int.sub_self]
    rfl
  have hQuotient : mantissa <<< 24 / mantissa = 2 ^ 24 := by
    rw [Nat.shiftLeft_eq, Nat.mul_div_cancel_left _ hPos]
  have hRest : mantissa <<< 24 % mantissa = 0 := by
    rw [Nat.shiftLeft_eq, Nat.mul_mod_right]
  have hCore :
      divCore Format.binary32 mantissa exponent mantissa exponent = (2 ^ 24, -24, .exact) := by
    rw [divCore, hTotal, hTarget]
    simp only [hShift, hQuotient, hRest]
    rfl
  show Float32.Model.pack (UnpackedFloat.div Format.binary32 f.unpack f.unpack) = _
  rw [hFinite, UnpackedFloat.div, hCore, hSign]
  rfl

/-- Zero divided by a finite number is a zero. -/
theorem zero_div {f : Float32.Model} (h : Finite f) :
    ∃ sign, (Float32.Model.ofInt 0 / f).unpack = .zero sign := by
  obtain ⟨sign, mantissa, exponent, hPos, hFinite⟩ := h
  have hDiv : Float32.Model.ofInt 0 / f = Float32.Model.pack (.zero (.positive / sign)) := by
    show Float32.Model.pack
      (UnpackedFloat.div Format.binary32 (Float32.Model.ofInt 0).unpack f.unpack) = _
    rw [hFinite, unpack_zero, UnpackedFloat.div]
  rw [hDiv]
  cases sign with
  | negative => exact ⟨.negative, rfl⟩
  | positive => exact ⟨.positive, rfl⟩

end Numbers

end Binary32
