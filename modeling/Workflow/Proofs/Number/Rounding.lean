/-
This file bounds how far rounding to a format moves a number.

The magnitude of a binary number is taken as a rational. A rounded fraction is a
number of the format, it lies within half a step of the fraction, and there is one
for every fraction below a limit that depends on the format. Where the format has all
its bits, half a step is at most the fraction divided by two to the number of bits.
-/

import Mathlib.Algebra.Order.Field.Power
import Mathlib.Tactic.FieldSimp
import Mathlib.Tactic.Linarith
import Mathlib.Tactic.NormNum
import Mathlib.Tactic.Positivity
import Mathlib.Tactic.Ring
import Workflow.Number.Binary

namespace Workflow.Number

/-- The absolute value of a number. -/
def Binary.magnitude (value : Binary) : ℚ := value.mantissa * 2 ^ value.exponent

/-- A number that the format can hold. -/
structure Format.Holds (format : Format) (value : Binary) : Prop where
  mantissa : value.mantissa < twoTo format.bits
  least : format.least ≤ value.exponent
  greatest : value.exponent ≤ format.greatest

/-- A format with some bits and some exponents that has all its bits for fractions from one on. -/
structure Format.Usable (format : Format) : Prop where
  bits : 0 < format.bits
  exponents : format.least ≤ format.greatest
  full : format.least + format.bits ≤ 1

theorem usable_double : double.Usable := ⟨by decide, by decide, by decide⟩

theorem usable_single : single.Usable := ⟨by decide, by decide, by decide⟩

/-! ### Powers as rationals -/

theorem cast_twoTo (count : Nat) : (twoTo count : ℚ) = 2 ^ count := Nat.cast_pow 2 count

theorem cast_tenTo (count : Nat) : (tenTo count : ℚ) = 10 ^ count := Nat.cast_pow 10 count

theorem twoTo_pos (count : Nat) : 0 < twoTo count := Nat.pow_pos (by decide)

theorem tenTo_pos (count : Nat) : 0 < tenTo count := Nat.pow_pos (by decide)

/-- A power with an exponent of either sign as a fraction. -/
theorem zpow_eq_div {base : ℚ} (nonzero : base ≠ 0) (exponent : Int) :
    base ^ exponent = base ^ exponent.toNat / base ^ (-exponent).toNat := by
  rw [← zpow_natCast, ← zpow_natCast, ← zpow_sub₀ nonzero]
  congr 1
  omega

theorem Binary.magnitude_nonneg (value : Binary) : 0 ≤ value.magnitude := by
  rw [magnitude]
  positivity

theorem Binary.mantissa_pos {value : Binary} (positive : 0 < value.magnitude) :
    0 < value.mantissa := by
  rw [magnitude] at positive
  exact Nat.cast_pos.1 (pos_of_mul_pos_left positive (by positivity))

/-! ### Quotients -/

section Quotients

variable {numerator denominator : Nat}

theorem divideByPower_pos (numerator : Nat) (positive : 0 < denominator) (exponent : Int) :
    0 < (divideByPower numerator denominator exponent).2 := Nat.mul_pos positive (twoTo_pos _)

theorem divideByPower_eq (numerator : Nat) (positive : 0 < denominator) (exponent : Int) :
    ((divideByPower numerator denominator exponent).1 : ℚ) /
        (divideByPower numerator denominator exponent).2 =
      numerator / denominator / 2 ^ exponent := by
  have isPositive : (0 : ℚ) < denominator := Nat.cast_pos.2 positive
  rw [divideByPower, Nat.cast_mul, Nat.cast_mul, cast_twoTo, cast_twoTo,
    zpow_eq_div two_ne_zero exponent]
  field_simp

/-- A rounded quotient is at most one half above the quotient. -/
theorem roundDiv_le (numerator : Nat) (positive : 0 < denominator) :
    (roundDiv numerator denominator : ℚ) ≤ numerator / denominator + 1 / 2 := by
  have isPositive : (0 : ℚ) < denominator := Nat.cast_pos.2 positive
  have parts := Nat.div_add_mod numerator denominator
  have bound :
      2 * (denominator * roundDiv numerator denominator) ≤ 2 * numerator + denominator := by
    rw [roundDiv]
    split
    · omega
    · rw [Nat.mul_add]
      omega
  have cast : (2 : ℚ) * (denominator * roundDiv numerator denominator) ≤
      2 * numerator + denominator := by exact_mod_cast bound
  rw [div_add_div _ _ isPositive.ne' two_ne_zero, le_div_iff₀ (by positivity)]
  linarith

/-- A rounded quotient is at most one half below the quotient. -/
theorem le_roundDiv (numerator : Nat) (positive : 0 < denominator) :
    (numerator / denominator : ℚ) ≤ roundDiv numerator denominator + 1 / 2 := by
  have isPositive : (0 : ℚ) < denominator := Nat.cast_pos.2 positive
  have parts := Nat.div_add_mod numerator denominator
  have small := Nat.mod_lt numerator positive
  have bound :
      2 * numerator ≤ 2 * (denominator * roundDiv numerator denominator) + denominator := by
    rw [roundDiv]
    split
    · omega
    · rw [Nat.mul_add]
      omega
  have cast : (2 : ℚ) * numerator ≤
      2 * (denominator * roundDiv numerator denominator) + denominator := by exact_mod_cast bound
  rw [div_le_iff₀ isPositive]
  linarith

/-- The lengths of the numerator and the denominator tell the magnitude of the fraction but for
one. -/
theorem log2_sub_log2_spec (some : 0 < numerator) (positive : 0 < denominator) :
    (2 : ℚ) ^ ((numerator.log2 : Int) - denominator.log2 - 1) ≤ numerator / denominator ∧
      (numerator / denominator : ℚ) < 2 ^ ((numerator.log2 : Int) - denominator.log2 + 1) := by
  have isPositive : (0 : ℚ) < denominator := Nat.cast_pos.2 positive
  have numeratorLow : (2 : ℚ) ^ numerator.log2 ≤ numerator := by
    exact_mod_cast Nat.log2_self_le some.ne'
  have numeratorHigh : (numerator : ℚ) < 2 ^ (numerator.log2 + 1) := by
    exact_mod_cast Nat.lt_log2_self
  have denominatorLow : (2 : ℚ) ^ denominator.log2 ≤ denominator := by
    exact_mod_cast Nat.log2_self_le positive.ne'
  have denominatorHigh : (denominator : ℚ) < 2 ^ (denominator.log2 + 1) := by
    exact_mod_cast Nat.lt_log2_self
  have power (exponent : Int) : (0 : ℚ) < 2 ^ exponent := by positivity
  constructor
  · rw [le_div_iff₀ isPositive]
    calc (2 : ℚ) ^ ((numerator.log2 : Int) - denominator.log2 - 1) * denominator
        ≤ 2 ^ ((numerator.log2 : Int) - denominator.log2 - 1) * 2 ^ (denominator.log2 + 1) :=
          mul_le_mul_of_nonneg_left denominatorHigh.le (power _).le
      _ = 2 ^ numerator.log2 := by
        rw [← zpow_natCast, ← zpow_natCast, ← zpow_add₀ two_ne_zero]
        congr 1
        omega
      _ ≤ numerator := numeratorLow
  · rw [div_lt_iff₀ isPositive]
    calc (numerator : ℚ) < 2 ^ (numerator.log2 + 1) := numeratorHigh
      _ = 2 ^ ((numerator.log2 : Int) - denominator.log2 + 1) * 2 ^ denominator.log2 := by
        rw [← zpow_natCast, ← zpow_natCast, ← zpow_add₀ two_ne_zero]
        congr 1
        omega
      _ ≤ _ := mul_le_mul_of_nonneg_left denominatorLow (power _).le

/-- Two to the magnitude is at most the fraction, and two to one more is beyond it. -/
theorem binaryMagnitude_spec (some : 0 < numerator) (positive : 0 < denominator) :
    (2 : ℚ) ^ binaryMagnitude numerator denominator ≤ numerator / denominator ∧
      (numerator / denominator : ℚ) < 2 ^ (binaryMagnitude numerator denominator + 1) := by
  have power (exponent : Int) : (0 : ℚ) < 2 ^ exponent := by positivity
  obtain ⟨estimateLow, estimateHigh⟩ := log2_sub_log2_spec some positive
  generalize estimateIs : (numerator.log2 : Int) - denominator.log2 = estimate at *
  have scaled := divideByPower_eq numerator positive estimate
  have unit : (0 : ℚ) < (divideByPower numerator denominator estimate).2 :=
    Nat.cast_pos.2 (divideByPower_pos numerator positive estimate)
  rw [binaryMagnitude]
  simp only [estimateIs]
  split
  · next large =>
    refine ⟨?_, estimateHigh⟩
    have atLeastOne : (1 : ℚ) ≤ numerator / denominator / 2 ^ estimate := by
      rw [← scaled, one_le_div unit]
      exact_mod_cast large
    rwa [le_div_iff₀ (power _), one_mul] at atLeastOne
  · next small =>
    refine ⟨estimateLow, ?_⟩
    have belowOne : (numerator / denominator / 2 ^ estimate : ℚ) < 1 := by
      rw [← scaled, div_lt_one unit]
      exact_mod_cast Nat.lt_of_not_le small
    rwa [div_lt_iff₀ (power _), one_mul, ← Int.sub_add_cancel estimate 1] at belowOne

end Quotients

/-! ### Rounding -/

/-- Fractions below the limit are rounded to a number of the format. -/
def Format.limit (format : Format) : ℚ := (2 ^ (format.bits + 1) - 1) * 2 ^ (format.greatest - 1)

/-- The step between numbers of the format around a fraction. -/
def Format.step (format : Format) (numerator denominator : Nat) : ℚ :=
  2 ^ max format.least (binaryMagnitude numerator denominator - (format.bits - 1))

namespace Format

variable {format : Format} {negative : Bool} {numerator denominator : Nat} {rounded : Binary}

theorem step_pos (format : Format) (numerator denominator : Nat) :
    0 < format.step numerator denominator := by
  rw [step]
  positivity

/-- What a fraction is rounded to, if there is such a number. -/
structure Nearest (format : Format) (negative : Bool) (numerator denominator : Nat)
    (rounded : Binary) : Prop where
  holds : format.Holds rounded
  negative : rounded.negative = negative
  above : rounded.magnitude ≤ numerator / denominator + format.step numerator denominator / 2
  below : numerator / denominator ≤ rounded.magnitude + format.step numerator denominator / 2

/-- The two ways to round a fraction that is not zero: to a mantissa that has room, or to the next
power of two. -/
theorem nearest_of_ne_zero (some : numerator ≠ 0) {exponent : Int} {mantissa : Nat}
    (isExponent : max format.least (binaryMagnitude numerator denominator - (format.bits - 1)) =
      exponent)
    (isMantissa : roundDiv (divideByPower numerator denominator exponent).1
      (divideByPower numerator denominator exponent).2 = mantissa) :
    format.nearest negative numerator denominator =
      if mantissa = twoTo format.bits then
        if exponent + 1 ≤ format.greatest then
          .some ⟨negative, twoTo (format.bits - 1), exponent + 1⟩
        else none
      else if exponent ≤ format.greatest then .some ⟨negative, mantissa, exponent⟩ else none := by
  rw [nearest, if_neg some]
  simp only [isExponent, isMantissa]
  split <;> rfl

/-- The mantissa before it is cut to size: how it compares with the fraction, and that it is at most
one above the greatest mantissa. -/
theorem mantissa_spec (format : Format) (some : 0 < numerator) (positive : 0 < denominator)
    {exponent : Int} {mantissa : Nat}
    (isExponent : max format.least (binaryMagnitude numerator denominator - (format.bits - 1)) =
      exponent)
    (isMantissa : roundDiv (divideByPower numerator denominator exponent).1
      (divideByPower numerator denominator exponent).2 = mantissa) :
    (mantissa * 2 ^ exponent : ℚ) ≤ numerator / denominator + 2 ^ exponent / 2 ∧
      (numerator / denominator : ℚ) ≤ mantissa * 2 ^ exponent + 2 ^ exponent / 2 ∧
      mantissa ≤ twoTo format.bits := by
  have power : (0 : ℚ) < 2 ^ exponent := by positivity
  have unit := divideByPower_pos numerator positive exponent
  have above := roundDiv_le (divideByPower numerator denominator exponent).1 unit
  have below := le_roundDiv (divideByPower numerator denominator exponent).1 unit
  rw [isMantissa, divideByPower_eq numerator positive] at above below
  refine ⟨?_, ?_, ?_⟩
  · calc (mantissa * 2 ^ exponent : ℚ)
        ≤ (numerator / denominator / 2 ^ exponent + 1 / 2) * 2 ^ exponent :=
          mul_le_mul_of_nonneg_right above power.le
      _ = numerator / denominator + 2 ^ exponent / 2 := by field_simp
  · calc (numerator / denominator : ℚ)
        = numerator / denominator / 2 ^ exponent * 2 ^ exponent := by field_simp
      _ ≤ (mantissa + 1 / 2) * 2 ^ exponent := mul_le_mul_of_nonneg_right below power.le
      _ = _ := by ring
  · have inReach : (numerator / denominator / 2 ^ exponent : ℚ) < 2 ^ format.bits := by
      rw [div_lt_iff₀ power, ← zpow_natCast, ← zpow_add₀ two_ne_zero]
      refine (binaryMagnitude_spec some positive).2.trans_le (zpow_le_zpow_right₀ one_le_two ?_)
      omega
    have halfAbove : (mantissa : ℚ) < twoTo format.bits + 1 := by
      rw [cast_twoTo]
      linarith
    exact Nat.lt_succ_iff.1 (by exact_mod_cast halfAbove)

/-- A number at the end of the range of mantissas is the same with half the mantissa. -/
theorem magnitude_carried (usable : format.Usable) (exponent : Int) :
    Binary.magnitude ⟨negative, twoTo (format.bits - 1), exponent + 1⟩ =
      twoTo format.bits * 2 ^ exponent := by
  have bits := usable.bits
  rw [Binary.magnitude, cast_twoTo, cast_twoTo, ← zpow_natCast, ← zpow_natCast,
    ← zpow_add₀ two_ne_zero, ← zpow_add₀ two_ne_zero]
  congr 1
  dsimp only
  omega

/-- A rounded fraction is a number of the format at most half a step away. -/
theorem nearest_spec (usable : format.Usable) (positive : 0 < denominator)
    (isNearest : format.nearest negative numerator denominator = some rounded) :
    format.Nearest negative numerator denominator rounded := by
  by_cases isZero : numerator = 0
  · rw [nearest, if_pos isZero] at isNearest
    cases isNearest
    have halfStep := half_pos (step_pos format numerator denominator)
    have noMagnitude : Binary.magnitude ⟨negative, 0, format.least⟩ = 0 := by
      simp [Binary.magnitude]
    refine ⟨⟨twoTo_pos _, le_refl _, usable.exponents⟩, rfl, ?_, ?_⟩
    · rw [noMagnitude, isZero, Nat.cast_zero, zero_div, zero_add]
      exact (isZero ▸ halfStep).le
    · rw [noMagnitude, isZero, Nat.cast_zero, zero_div, zero_add]
      exact (isZero ▸ halfStep).le
  · obtain ⟨above, below, bounded⟩ := mantissa_spec format
      (Nat.pos_of_ne_zero isZero) positive rfl rfl
    rw [nearest_of_ne_zero isZero rfl rfl] at isNearest
    rw [← step] at above below
    split at isNearest
    · next carried =>
      split at isNearest
      · next inRange =>
        cases isNearest
        rw [carried, step, ← magnitude_carried usable] at above below
        have bits := usable.bits
        refine ⟨⟨Nat.pow_lt_pow_right (by decide) (by omega), ?_, inRange⟩, rfl, above, below⟩
        exact (le_max_left _ _).trans (Int.le_add_one le_rfl)
      · cases isNearest
    · next room =>
      split at isNearest
      · next inRange =>
        cases isNearest
        exact ⟨⟨Nat.lt_of_le_of_ne bounded room, le_max_left _ _, inRange⟩, rfl, above, below⟩
      · cases isNearest

/-- A step is no greater than the fraction, unless it is the least step of the format. -/
theorem step_le (usable : format.Usable) (some : 0 < numerator) (positive : 0 < denominator) :
    format.step numerator denominator ≤ max ((2 : ℚ) ^ format.least) (numerator / denominator) := by
  have bits := usable.bits
  rw [step]
  rcases le_total format.least (binaryMagnitude numerator denominator - (format.bits - 1)) with
    coarse | fine
  · rw [max_eq_right coarse]
    refine le_max_of_le_right (le_trans ?_ (binaryMagnitude_spec some positive).1)
    exact zpow_le_zpow_right₀ one_le_two (by omega)
  · rw [max_eq_left fine]
    exact le_max_left _ _

/-- From one on, half a step is small compared to the fraction. -/
theorem half_step_le (usable : format.Usable) (positive : 0 < denominator)
    (atLeastOne : denominator ≤ numerator) :
    format.step numerator denominator / 2 ≤ numerator / denominator / 2 ^ format.bits := by
  have isPositive : (0 : ℚ) < denominator := Nat.cast_pos.2 positive
  obtain ⟨low, high⟩ := binaryMagnitude_spec (Nat.lt_of_lt_of_le positive atLeastOne) positive
  have fromOne : (2 : ℚ) ^ (0 : Int) ≤ numerator / denominator := by
    rw [zpow_zero, one_le_div isPositive]
    exact_mod_cast atLeastOne
  have whole := (zpow_lt_zpow_iff_right₀ one_lt_two).1 (fromOne.trans_lt high)
  have full := usable.full
  have stepIs : format.step numerator denominator / 2 =
      2 ^ binaryMagnitude numerator denominator / 2 ^ format.bits := by
    rw [step, max_eq_right (by omega), ← zpow_natCast, ← zpow_sub₀ two_ne_zero, div_eq_mul_inv,
      ← zpow_sub_one₀ two_ne_zero]
    congr 1
    omega
  rw [stepIs]
  exact div_le_div_of_nonneg_right low (by positivity)

/-- A natural number is rounded to one that is not much greater, and not much less. -/
theorem nearest_natural (usable : format.Usable) {whole : Nat}
    (isNearest : format.nearest negative whole 1 = some rounded) :
    rounded.magnitude ≤ whole * (1 + 1 / 2 ^ format.bits) ∧
      whole * (1 - 1 / 2 ^ format.bits) ≤ rounded.magnitude := by
  by_cases isZero : whole = 0
  · rw [nearest, if_pos isZero] at isNearest
    cases isNearest
    simp [Binary.magnitude, isZero]
  · have half := half_step_le usable Nat.one_pos (Nat.pos_of_ne_zero isZero)
    obtain ⟨-, -, above, below⟩ := nearest_spec usable Nat.one_pos isNearest
    rw [Nat.cast_one, div_one] at half above below
    rw [mul_one_add, mul_one_sub, mul_one_div]
    constructor <;> linarith

/-- Every fraction below the limit is rounded to a number of the format. -/
theorem nearest_isSome (negative : Bool) (usable : format.Usable) (positive : 0 < denominator)
    (inReach : (numerator / denominator : ℚ) < format.limit) :
    (format.nearest negative numerator denominator).isSome := by
  by_cases isZero : numerator = 0
  · rw [nearest, if_pos isZero]
    rfl
  have some := Nat.pos_of_ne_zero isZero
  obtain ⟨exponent, isExponent⟩ : ∃ exponent, max format.least
    (binaryMagnitude numerator denominator - (format.bits - 1)) = exponent := ⟨_, rfl⟩
  obtain ⟨mantissa, isMantissa⟩ : ∃ mantissa,
    roundDiv (divideByPower numerator denominator exponent).1
      (divideByPower numerator denominator exponent).2 = mantissa := ⟨_, rfl⟩
  obtain ⟨above, -, -⟩ := mantissa_spec format some positive isExponent isMantissa
  have limitBelow : format.limit < 2 ^ ((format.bits : Int) + format.greatest) := by
    rw [limit]
    calc ((2 ^ (format.bits + 1) - 1) * 2 ^ (format.greatest - 1) : ℚ)
        < 2 ^ (format.bits + 1) * 2 ^ (format.greatest - 1) :=
          mul_lt_mul_of_pos_right (by linarith) (by positivity)
      _ = 2 ^ ((format.bits : Int) + format.greatest) := by
        rw [← zpow_natCast, ← zpow_add₀ two_ne_zero]
        congr 1
        omega
  have magnitudeBelow : binaryMagnitude numerator denominator < format.bits + format.greatest :=
    (zpow_lt_zpow_iff_right₀ one_lt_two).1
      (((binaryMagnitude_spec some positive).1.trans_lt inReach).trans limitBelow)
  have inRange : exponent ≤ format.greatest := by
    have := usable.exponents
    omega
  rw [nearest_of_ne_zero isZero isExponent isMantissa, if_pos inRange]
  split
  · next carried =>
    have below : exponent < format.greatest := by
      refine lt_of_le_of_ne inRange fun isGreatest => ?_
      rw [carried, cast_twoTo, isGreatest] at above
      have limitIs : format.limit =
          2 ^ format.bits * 2 ^ format.greatest - 2 ^ format.greatest / 2 := by
        rw [limit, zpow_sub_one₀ two_ne_zero]
        ring
      linarith
    rw [if_pos (by omega)]
    rfl
  · rfl

/-- Decimals are rounded to numbers of the format. -/
theorem holds_ofDecimal (usable : format.Usable) {digits : Nat} {exponent : Int}
    (isRounded : format.ofDecimal negative digits exponent = some rounded) :
    format.Holds rounded := by
  rw [ofDecimal] at isRounded
  split at isRounded
  · cases isRounded
    exact ⟨twoTo_pos _, le_refl _, usable.exponents⟩
  · split at isRounded
    · cases isRounded
    · exact (nearest_spec usable (tenTo_pos _) isRounded).holds

end Format

end Workflow.Number
