/-
This file proves that numerals are read as long as they stay clear of the greatest
double.

A numeral is read in steps, and each of them may round up: the leading digits, the
power of ten, and their product. Together they raise the number by less than four
parts in two to the fifty-fourth. So the product is in range if the number that the
numeral stands for is below the limit even after it is raised that much; divisions
only make the number smaller.
-/

import Workflow.Number.Stepwise
import Workflow.Proofs.Number.Numeral
import Workflow.Proofs.Number.Rounding

namespace Workflow.Number

/-! ### Steps of reading -/

/-- How much a step of rounding may raise a double that is at least one. -/
def raise : ℚ := 1 + 1 / 2 ^ 53

theorem limit_double : double.limit = ((twoTo 54 - 1) * twoTo 970 : Nat) := by
  rw [Nat.cast_mul, Nat.cast_sub (twoTo_pos 54), cast_twoTo, cast_twoTo, Nat.cast_one]
  rfl

theorem cast_lt_limit (whole : Nat) (small : whole < (twoTo 54 - 1) * twoTo 970) :
    (whole : ℚ) < double.limit := by
  rw [limit_double]
  exact Nat.cast_lt.2 small

theorem product_isSome {first second : Binary}
    (inReach : first.magnitude * second.magnitude < double.limit) :
    (product first second).isSome := by
  refine Format.nearest_isSome _ usable_double (twoTo_pos _) ?_
  have same : ((first.mantissa * second.mantissa *
      twoTo (first.exponent + second.exponent).toNat : Nat) : ℚ) /
        (twoTo (-(first.exponent + second.exponent)).toNat : Nat) =
      first.magnitude * second.magnitude := by
    rw [Binary.magnitude, Binary.magnitude, Nat.cast_mul, Nat.cast_mul, cast_twoTo, cast_twoTo,
      mul_div_assoc, ← zpow_eq_div two_ne_zero, zpow_add₀ two_ne_zero]
    ring
  rwa [same]

/-- The fraction that a quotient is rounded from. -/
theorem fraction_quotient (first : Binary) {second : Binary} (positive : 0 < second.mantissa) :
    ((first.mantissa * twoTo (first.exponent - second.exponent).toNat : Nat) : ℚ) /
        (second.mantissa * twoTo (second.exponent - first.exponent).toNat : Nat) =
      first.magnitude / second.magnitude := by
  have isPositive : (0 : ℚ) < second.mantissa := Nat.cast_pos.2 positive
  have power : (2 : ℚ) ^ first.exponent / 2 ^ second.exponent =
      2 ^ (first.exponent - second.exponent).toNat /
        2 ^ (second.exponent - first.exponent).toNat := by
    rw [← zpow_sub₀ two_ne_zero, zpow_eq_div two_ne_zero, neg_sub]
  rw [Binary.magnitude, Binary.magnitude, Nat.cast_mul, Nat.cast_mul, cast_twoTo, cast_twoTo,
    mul_div_mul_comm, mul_div_mul_comm, power]

theorem quotient_isSome {first second : Binary} (positive : 0 < second.mantissa)
    (inReach : first.magnitude / second.magnitude < double.limit) :
    (quotient first second).isSome := by
  refine Format.nearest_isSome _ usable_double (Nat.mul_pos positive (twoTo_pos _)) ?_
  rwa [fraction_quotient first positive]

/-- The powers of ten are doubles, but for rounding. -/
theorem powerOfTen_spec {power : Nat} (small : power ≤ greatestPower) :
    ∃ rounded, powerOfTen power = some rounded ∧ rounded.magnitude ≤ 10 ^ power * raise ∧
      10 ^ power / 2 ≤ rounded.magnitude := by
  have inReach : ((tenTo power : Nat) / (1 : Nat) : ℚ) < double.limit := by
    rw [Nat.cast_one, div_one]
    refine cast_lt_limit _ (Nat.lt_of_le_of_lt (Nat.pow_le_pow_right (by decide) small) ?_)
    decide +kernel
  obtain ⟨rounded, isRounded⟩ := Option.isSome_iff_exists.1
    (Format.nearest_isSome false usable_double Nat.one_pos inReach)
  obtain ⟨above, below⟩ := Format.nearest_natural usable_double isRounded
  rw [cast_tenTo] at above below
  refine ⟨rounded, isRounded, above, le_trans ?_ below⟩
  rw [div_eq_mul_one_div]
  exact mul_le_mul_of_nonneg_left (by norm_num [double]) (by positivity)

/-- A moderate magnitude divided by two or more is moderate. -/
theorem quotient_moderate {first second : Binary} (moderate : first.magnitude ≤ 2 ^ 100)
    (nonzero : first.mantissa ≠ 0) (large : 2 ≤ second.magnitude) :
    ∃ rounded, quotient first second = some rounded ∧ rounded.magnitude ≤ 2 ^ 100 := by
  have positive := Binary.mantissa_pos (two_pos.trans_le large)
  have halved : first.magnitude / second.magnitude ≤ 2 ^ 99 := by
    rw [div_le_iff₀ (two_pos.trans_le large)]
    linarith
  have inReach : (2 ^ 99 : ℚ) < double.limit := by
    exact_mod_cast cast_lt_limit (2 ^ 99) (by decide +kernel)
  obtain ⟨rounded, isRounded⟩ := Option.isSome_iff_exists.1
    (quotient_isSome positive (halved.trans_lt inReach))
  have some : 0 < first.mantissa * twoTo (first.exponent - second.exponent).toNat :=
    Nat.mul_pos (Nat.pos_of_ne_zero nonzero) (twoTo_pos _)
  have unit : 0 < second.mantissa * twoTo (second.exponent - first.exponent).toNat :=
    Nat.mul_pos positive (twoTo_pos _)
  have above := (Format.nearest_spec usable_double unit isRounded).above
  have step := Format.step_le usable_double some unit
  rw [fraction_quotient first positive] at above step
  have least : (2 : ℚ) ^ double.least ≤ 2 ^ 99 := by
    rw [← zpow_natCast]
    exact zpow_le_zpow_right₀ one_le_two (by decide)
  have coarse := step.trans (max_le least halved)
  exact ⟨rounded, isRounded, by linarith⟩

/-- A moderate magnitude can be divided by every power of ten. -/
theorem scaleByTen_isSome_of_neg {magnitude : Binary} {exponent : Int} (negative : exponent < 0)
    (moderate : magnitude.magnitude ≤ 2 ^ 100) : (scaleByTen magnitude exponent).isSome := by
  induction magnitude, exponent using scaleByTen.induct with
  | case1 magnitude exponent small =>
    obtain ⟨power, isPower, -, large⟩ := powerOfTen_spec small
    have half : (1 / 2 : ℚ) ≤ power.magnitude :=
      le_trans (div_le_div_of_nonneg_right (one_le_pow₀ (by norm_num)) two_pos.le) large
    have positive := one_half_pos.trans_le half
    have inReach : (2 ^ 101 : ℚ) < double.limit := by
      exact_mod_cast cast_lt_limit (2 ^ 101) (by decide +kernel)
    rw [scaleByTen, if_pos small, isPower, if_neg (by omega)]
    refine quotient_isSome (Binary.mantissa_pos positive) (lt_of_le_of_lt ?_ inReach)
    rw [div_le_iff₀ positive]
    linarith
  | case2 magnitude exponent large isZero =>
    rw [scaleByTen, if_neg large, if_pos isZero]
    rfl
  | case3 magnitude exponent large nonzero positive => omega
  | case4 magnitude exponent large nonzero below inductionHypothesis =>
    obtain ⟨power, isPower, -, greatest⟩ := powerOfTen_spec (Nat.le_refl greatestPower)
    have doubled : (2 : ℚ) ≤ power.magnitude := by
      refine le_trans ?_ greatest
      rw [le_div_iff₀ two_pos]
      exact le_trans (by norm_num) (pow_le_pow_right₀ (by norm_num : (1 : ℚ) ≤ 10)
        (by decide : 1 ≤ greatestPower))
    obtain ⟨smaller, isSmaller, stillModerate⟩ := quotient_moderate moderate nonzero doubled
    rw [scaleByTen, if_neg large, if_neg nonzero, if_neg below, isPower, Option.bind_some,
      isSmaller]
    refine inductionHypothesis smaller ?_ stillModerate
    simp only [greatestPower] at large ⊢
    omega

/-- A magnitude can be multiplied by a power of ten if the product is in range even after the power
is raised by rounding. -/
theorem scaleByTen_isSome_of_nonneg {magnitude : Binary} {exponent : Nat}
    (visible : magnitude.mantissa = 0 ∨ 1 / 2 ≤ magnitude.magnitude)
    (inReach : magnitude.magnitude * (10 ^ exponent * raise) < double.limit) :
    (scaleByTen magnitude exponent).isSome := by
  rw [scaleByTen, Int.natAbs_natCast]
  split
  · next small =>
    obtain ⟨power, isPower, raised, -⟩ := powerOfTen_spec small
    rw [isPower, if_pos (Int.natCast_nonneg exponent)]
    refine product_isSome (lt_of_le_of_lt ?_ inReach)
    exact mul_le_mul_of_nonneg_left raised magnitude.magnitude_nonneg
  · next large =>
    split
    · rfl
    · next nonzero =>
      -- a power beyond the greatest would lift even one half out of range
      have half := visible.resolve_left nonzero
      have beyond : (tenTo (greatestPower + 1) : ℚ) ≤ 10 ^ exponent := by
        rw [cast_tenTo]
        exact pow_le_pow_right₀ (by norm_num) (Nat.lt_of_not_le large)
      have tooLarge : double.limit ≤ 1 / 2 * tenTo (greatestPower + 1) := by
        rw [limit_double, one_div, le_inv_mul_iff₀ two_pos]
        exact_mod_cast (by decide +kernel :
          2 * ((twoTo 54 - 1) * twoTo 970) ≤ tenTo (greatestPower + 1))
      have raised : (tenTo (greatestPower + 1) : ℚ) ≤ 10 ^ exponent * raise :=
        le_trans beyond (le_mul_of_one_le_right (by positivity) (by norm_num [raise]))
      have lifted := mul_le_mul half raised (Nat.cast_nonneg _) magnitude.magnitude_nonneg
      exact absurd ((tooLarge.trans lifted).trans_lt inReach) (lt_irrefl _)

/-! ### Doubles only -/

theorem holds_product {first second rounded : Binary}
    (isProduct : product first second = some rounded) : double.Holds rounded :=
  (Format.nearest_spec usable_double (twoTo_pos _) isProduct).holds

theorem holds_quotient {first second rounded : Binary} (positive : 0 < second.mantissa)
    (isQuotient : quotient first second = some rounded) : double.Holds rounded :=
  (Format.nearest_spec usable_double (Nat.mul_pos positive (twoTo_pos _)) isQuotient).holds

/-- Doubles are scaled to doubles. -/
theorem holds_scaleByTen {magnitude rounded : Binary} {exponent : Int}
    (holds : double.Holds magnitude) (isScaled : scaleByTen magnitude exponent = some rounded) :
    double.Holds rounded := by
  induction magnitude, exponent using scaleByTen.induct with
  | case1 magnitude exponent small =>
    obtain ⟨power, isPower, -, large⟩ := powerOfTen_spec small
    have positive : 0 < power.magnitude := lt_of_lt_of_le (by positivity) large
    rw [scaleByTen, if_pos small, isPower, Option.bind_some] at isScaled
    split at isScaled
    · exact holds_product isScaled
    · exact holds_quotient (Binary.mantissa_pos positive) isScaled
  | case2 magnitude exponent large isZero =>
    rw [scaleByTen, if_neg large, if_pos isZero] at isScaled
    cases isScaled
    exact holds
  | case3 magnitude exponent large nonzero positive =>
    rw [scaleByTen, if_neg large, if_neg nonzero, if_pos positive] at isScaled
    cases isScaled
  | case4 magnitude exponent large nonzero below inductionHypothesis =>
    obtain ⟨power, isPower, -, greatest⟩ := powerOfTen_spec (Nat.le_refl greatestPower)
    have positive : 0 < power.magnitude := lt_of_lt_of_le (by positivity) greatest
    rw [scaleByTen, if_neg large, if_neg nonzero, if_neg below, isPower, Option.bind_some]
      at isScaled
    obtain ⟨smaller, isSmaller, isScaled⟩ := Option.bind_eq_some_iff.1 isScaled
    exact inductionHypothesis smaller (holds_quotient (Binary.mantissa_pos positive) isSmaller)
      isScaled

/-- What a numeral is read as is a double. -/
theorem Numeral.holds_stepwise? {numeral : Numeral} {value : Binary}
    (isValue : numeral.stepwise? = some value) : double.Holds value := by
  obtain ⟨scaled, isScaled, rfl⟩ := Option.map_eq_some_iff.1 isValue
  obtain ⟨rounded, isRounded, isScaled⟩ := Option.bind_eq_some_iff.1 isScaled
  have holds := (Format.nearest_spec usable_double Nat.one_pos isRounded).holds
  obtain ⟨mantissa, least, greatest⟩ := holds_scaleByTen holds isScaled
  exact ⟨mantissa, least, greatest⟩

/-- So is what it is rounded to at once. -/
theorem Numeral.holds_round {numeral : Numeral} {value : Binary}
    (isValue : numeral.round double = some value) : double.Holds value :=
  Format.holds_ofDecimal usable_double isValue

/-! ### Digits -/

theorem foldl_appendDigit_ge (digits : List Char) (total : Nat) :
    total * 10 ^ digits.length ≤ digits.foldl appendDigit total := by
  induction digits generalizing total with
  | nil => simp
  | cons digit rest inductionHypothesis =>
    refine le_trans ?_ (inductionHypothesis (appendDigit total digit))
    rw [List.length_cons, Nat.pow_succ', ← Nat.mul_assoc, appendDigit]
    exact Nat.mul_le_mul_right _ (by omega)

theorem foldl_appendDigit_lt {digits : List Char} (areDigits : ∀ c ∈ digits, c.isDigit = true)
    (total : Nat) : digits.foldl appendDigit total < (total + 1) * 10 ^ digits.length := by
  induction digits generalizing total with
  | nil => simp
  | cons digit rest inductionHypothesis =>
    obtain ⟨isDigit, others⟩ := List.forall_mem_cons.1 areDigits
    refine lt_of_lt_of_le (inductionHypothesis others _) ?_
    have atMostNine : digit.toNat ≤ '0'.toNat + 9 := (Char.isDigit_iff_toNat.1 isDigit).2
    rw [List.length_cons, Nat.pow_succ', ← Nat.mul_assoc, appendDigit]
    exact Nat.mul_le_mul_right _ (by omega)

/-- Digits that fit 64 bits are all taken up. -/
theorem gather_of_lt {digits : List Char} {total : Nat}
    (fits : digits.foldl appendDigit total < twoTo 64) :
    gather total digits = (digits.foldl appendDigit total, 0) := by
  induction digits generalizing total with
  | nil => rfl
  | cons digit rest inductionHypothesis =>
    have longer : appendDigit total digit < twoTo 64 :=
      lt_of_le_of_lt (le_trans (Nat.le_mul_of_pos_right _ (Nat.pow_pos (by decide)))
        (foldl_appendDigit_ge rest _)) fits
    rw [gather]
    simp only [if_pos longer]
    exact inductionHypothesis fits

/-- What is taken up fits 64 bits, and is no more than what is written. -/
theorem gather_spec {digits : List Char} {total significand dropped : Nat}
    (small : total < twoTo 64) (taken : gather total digits = (significand, dropped)) :
    significand < twoTo 64 ∧ dropped ≤ digits.length ∧
      significand * 10 ^ dropped ≤ digits.foldl appendDigit total := by
  induction digits generalizing total with
  | nil =>
    cases taken
    exact ⟨small, Nat.le_refl 0, by simp⟩
  | cons digit rest inductionHypothesis =>
    rw [gather] at taken
    split at taken
    · next longer =>
      obtain ⟨fits, fewer, atMost⟩ := inductionHypothesis longer taken
      exact ⟨fits, Nat.le_succ_of_le fewer, atMost⟩
    · cases taken
      exact ⟨small, Nat.le_refl _, foldl_appendDigit_ge (digit :: rest) _⟩

/-! ### Numerals -/

/-- The absolute value of the number that a numeral stands for. -/
def Numeral.magnitude (numeral : Numeral) : ℚ := numeral.scaled.1 * 10 ^ numeral.scaled.2

/-- A double near a natural number of 64 bits. -/
theorem nearest_significand {significand : Nat} (fits : significand < twoTo 64) :
    ∃ rounded, double.nearest false significand 1 = some rounded ∧
      (rounded.mantissa = 0 ∨ 1 / 2 ≤ rounded.magnitude) ∧
      rounded.magnitude ≤ significand * raise ∧ rounded.magnitude ≤ 2 ^ 100 := by
  have inReach : ((significand : Nat) / (1 : Nat) : ℚ) < double.limit := by
    rw [Nat.cast_one, div_one]
    exact cast_lt_limit _ (lt_trans fits (by decide +kernel))
  obtain ⟨rounded, isRounded⟩ := Option.isSome_iff_exists.1
    (Format.nearest_isSome false usable_double Nat.one_pos inReach)
  obtain ⟨above, below⟩ := Format.nearest_natural usable_double isRounded
  refine ⟨rounded, isRounded, ?_, above, ?_⟩
  · rcases Nat.eq_zero_or_pos significand with rfl | positive
    · rw [Format.nearest, if_pos rfl] at isRounded
      cases isRounded
      exact Or.inl rfl
    · refine Or.inr (le_trans ?_ below)
      have : (1 : ℚ) ≤ significand := by exact_mod_cast positive
      norm_num [double]
      linarith
  · have bound : (significand : ℚ) < 2 ^ 64 := by
      rw [← cast_twoTo]
      exact_mod_cast fits
    refine le_trans above ?_
    norm_num [double]
    linarith

/-- What is taken up of the digits is no more than what the numeral stands for. -/
theorem Numeral.taken_le {numeral : Numeral} {significand dropped : Nat}
    (fewer : dropped ≤ (numeral.fraction.getD []).length)
    (atMost : significand * 10 ^ dropped ≤
      digitsValue (numeral.whole ++ numeral.fraction.getD [])) :
    (significand * 10 ^ (numeral.shift - ((numeral.fraction.getD []).length - dropped : Nat)) : ℚ) ≤
      numeral.magnitude := by
  have split : numeral.shift - ((numeral.fraction.getD []).length - dropped : Nat) =
      (dropped : Int) + (numeral.shift - (numeral.fraction.getD []).length) := by omega
  rw [split, zpow_add₀ (by norm_num), zpow_natCast, ← mul_assoc]
  refine mul_le_mul_of_nonneg_right ?_ (by positivity)
  exact_mod_cast atMost

theorem Numeral.stepwise?_isSome {numeral : Numeral}
    (areDigits : ∀ c ∈ numeral.whole, c.isDigit = true) (short : numeral.whole.length ≤ 19)
    (inReach : numeral.magnitude * raise ^ 2 < double.limit) : numeral.stepwise?.isSome := by
  have wholeFits : digitsValue numeral.whole < twoTo 64 := by
    refine lt_of_lt_of_le (foldl_appendDigit_lt areDigits 0) ?_
    rw [zero_add, one_mul]
    exact (Nat.pow_le_pow_right (by decide) short).trans (by decide)
  have wholeTaken : gather 0 numeral.whole = (digitsValue numeral.whole, 0) :=
    gather_of_lt wholeFits
  obtain ⟨significand, dropped, taken⟩ : ∃ significand dropped,
    gather (digitsValue numeral.whole) (numeral.fraction.getD []) = (significand, dropped) :=
      ⟨_, _, rfl⟩
  obtain ⟨fits, fewer, atMost⟩ := gather_spec wholeFits taken
  rw [digitsValue, ← List.foldl_append] at atMost
  obtain ⟨rounded, isRounded, visible, raised, moderate⟩ := nearest_significand fits
  have notMore := taken_le fewer atMost
  rw [stepwise?]
  simp only [wholeTaken, taken, isRounded, Option.bind_some, Option.isSome_map, Nat.cast_zero,
    add_zero]
  generalize numeral.shift - ((numeral.fraction.getD []).length - dropped : Nat) = exponent at *
  rcases lt_or_ge exponent 0 with negative | positive
  · exact scaleByTen_isSome_of_neg negative moderate
  · obtain ⟨power, rfl⟩ := Int.eq_ofNat_of_zero_le positive
    rw [zpow_natCast] at notMore
    refine scaleByTen_isSome_of_nonneg visible (lt_of_le_of_lt ?_ inReach)
    have raiseNonneg : (0 : ℚ) ≤ raise := by norm_num [raise]
    calc rounded.magnitude * (10 ^ power * raise)
        ≤ significand * raise * (10 ^ power * raise) :=
          mul_le_mul_of_nonneg_right raised (by positivity)
      _ = significand * 10 ^ power * raise ^ 2 := by ring
      _ ≤ numeral.magnitude * raise ^ 2 := mul_le_mul_of_nonneg_right notMore (by positivity)

/-- A numeral whose digits before the point fit 64 bits is read if what it stands for is in range
even after it is raised twice. -/
theorem Numeral.value?_isSome {numeral : Numeral}
    (areDigits : ∀ c ∈ numeral.whole, c.isDigit = true) (short : numeral.whole.length ≤ 19)
    (inReach : numeral.magnitude * raise ^ 2 < double.limit) : numeral.value?.isSome := by
  rw [value?, apply_ite Option.isSome, Option.isSome_map, stepwise?_isSome areDigits short inReach]
  exact ite_self _

end Workflow.Number
