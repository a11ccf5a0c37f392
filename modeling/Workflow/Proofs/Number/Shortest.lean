/-
This file bounds the decimals that numbers are written as, and proves that every
number of a format is read from its numeral.

The shortest decimal lies between the neighbours of a number, so it exceeds the number
by at most half a step. The numeral stands for exactly that decimal. So it stays clear
of the limit, but for the three greatest doubles; these are read as well.
-/

import Workflow.Proofs.Number.Reading

namespace Workflow.Number

/-! ### Decimals -/

/-- What a decimal stands for. -/
def Decimal.magnitude (decimal : Decimal) : ℚ := decimal.digits * 10 ^ decimal.exponent

theorem Decimal.magnitude_strip (limit : Nat) (decimal : Decimal) :
    (decimal.strip limit).magnitude = decimal.magnitude := by
  induction limit generalizing decimal with
  | zero => rfl
  | succ limit inductionHypothesis =>
    rw [strip]
    split
    · next isRound =>
      rw [inductionHypothesis, magnitude, magnitude, zpow_add_one₀ (by norm_num)]
      have whole : (decimal.digits : ℚ) = (decimal.digits / 10 : Nat) * 10 := by
        exact_mod_cast (Nat.div_mul_cancel (Nat.dvd_of_mod_eq_zero isRound)).symm
      rw [whole]
      ring
    · rfl

theorem Grid.le_of_within {grid : Grid} {interval : Interval} {point : Nat}
    (isWithin : grid.within interval point = true) :
    point * grid.unit ≤ interval.high * grid.scale := by
  rw [within] at isWithin
  split at isWithin
  · simp only [Bool.and_eq_true, decide_eq_true_eq] at isWithin
    exact isWithin.2
  · simp only [Bool.and_eq_true, decide_eq_true_eq] at isWithin
    exact isWithin.2.le

theorem Grid.within_of_hit {grid : Grid} {interval : Interval} {decimal : Decimal}
    (isHit : grid.hit interval = some decimal) :
    grid.within interval decimal.digits = true ∧ decimal.exponent = grid.exponent := by
  simp only [hit] at isHit
  obtain ⟨point, found, rfl⟩ := Option.map_eq_some_iff.1 isHit
  refine ⟨?_, rfl⟩
  split at found
  · next belowWithin aboveWithin =>
    split at found
    · cases found
      exact belowWithin
    · cases found
      exact aboveWithin
  · next belowWithin _ =>
    cases found
    exact belowWithin
  · next _ aboveWithin =>
    cases found
    exact aboveWithin
  · cases found

/-- A point of a grid in the interval of a number is at most half a step above the number. -/
theorem Grid.magnitude_le_of_hit {format : Format} {value : Binary} {exponent : Int}
    {decimal : Decimal}
    (isHit : (Grid.over value.exponent exponent).hit (format.interval value) = some decimal) :
    decimal.magnitude ≤ value.magnitude + 2 ^ value.exponent / 2 := by
  obtain ⟨isWithin, isExponent⟩ := within_of_hit isHit
  have bound : (decimal.digits * (Grid.over value.exponent exponent).unit : ℚ) ≤
      (format.interval value).high * (Grid.over value.exponent exponent).scale := by
    exact_mod_cast le_of_within isWithin
  have high : ((format.interval value).high : ℚ) = 4 * value.mantissa + 2 := by
    rw [Format.interval]
    push_cast
    rfl
  simp only [Grid.over, Nat.cast_mul, cast_twoTo, cast_tenTo, high] at bound
  have quarters : value.magnitude + 2 ^ value.exponent / 2 =
      (4 * value.mantissa + 2) * 2 ^ (value.exponent - 2) := by
    rw [Binary.magnitude, zpow_sub₀ two_ne_zero]
    norm_num
    ring
  rw [quarters, Decimal.magnitude, isExponent, Grid.over, zpow_eq_div two_ne_zero, neg_sub,
    zpow_eq_div (by norm_num : (10 : ℚ) ≠ 0), ← mul_div_assoc, ← mul_div_assoc,
    div_le_div_iff₀ (by positivity) (by positivity)]
  linarith

/-- So is the shortest decimal. -/
theorem Format.magnitude_shortest_le (format : Format) (value : Binary) :
    (format.shortest value).magnitude ≤ value.magnitude + 2 ^ value.exponent / 2 := by
  rw [shortest]
  generalize hits : List.findSome? _ (List.range 17) = found
  rw [Decimal.magnitude_strip]
  cases found with
  | none =>
    have nonneg := value.magnitude_nonneg
    rw [Option.getD_none, Decimal.magnitude, Nat.cast_zero, zero_mul]
    positivity
  | some decimal =>
    obtain ⟨index, _, isHit⟩ := List.exists_of_findSome?_eq_some hits
    exact Grid.magnitude_le_of_hit isHit

/-! ### Numerals of decimals -/

theorem digitsValue_append_zeros (digits : List Char) (count : Nat) :
    digitsValue (digits ++ List.replicate count '0') = digitsValue digits * 10 ^ count := by
  induction count with
  | zero => simp
  | succ count inductionHypothesis =>
    rw [List.replicate_succ', ← List.append_assoc, digitsValue, List.foldl_append, ← digitsValue,
      inductionHypothesis, Nat.pow_succ]
    show 10 * (digitsValue digits * 10 ^ count) + 0 = _
    ring

theorem digitsValue_zeros_append (digits : List Char) (count : Nat) :
    digitsValue (List.replicate count '0' ++ digits) = digitsValue digits := by
  induction count with
  | zero => rfl
  | succ count inductionHypothesis => exact inductionHypothesis

/-- An exponent that is written with its sign. -/
theorem Numeral.shift_signed (negative : Bool) (whole : List Char) (fraction : Option (List Char))
    (power : Int) :
    shift ⟨negative, whole, fraction, some (power < 0, decimalDigits power.natAbs)⟩ = power := by
  show (if decide (power < 0) = true then -(digitsValue (decimalDigits power.natAbs) : Int)
    else digitsValue (decimalDigits power.natAbs)) = power
  rw [digitsValue_decimalDigits]
  split
  · next below =>
    have := of_decide_eq_true below
    omega
  · next above =>
    have := of_decide_eq_false (Bool.eq_false_iff.2 above)
    omega

/-- The numeral of a decimal stands for that decimal. -/
theorem Layout.magnitude_numeral (layout : Layout) (negative : Bool) (decimal : Decimal) :
    (layout.numeral negative decimal).magnitude = decimal.magnitude := by
  have isValue := digitsValue_decimalDigits decimal.digits
  have someDigit := List.length_pos_iff.2 (isDigits_decimalDigits decimal.digits).some
  have parts {numeral : Numeral}
      (digits : digitsValue (numeral.whole ++ numeral.fraction.getD []) = decimal.digits)
      (exponent : numeral.shift - (numeral.fraction.getD []).length = decimal.exponent) :
      numeral.magnitude = decimal.magnitude := by
    rw [Numeral.magnitude, Numeral.scaled, Decimal.magnitude, digits, exponent]
  rw [Layout.numeral]
  split
  · next plain =>
    split
    · next whole =>
      -- the point stands behind the zeros, so the digits after it add one more
      obtain ⟨zeros, isZeros⟩ := Int.eq_ofNat_of_zero_le whole
      rw [isZeros, Int.toNat_natCast, Numeral.magnitude, Numeral.scaled, Decimal.magnitude, isZeros,
        zpow_natCast]
      show (digitsValue (decimalDigits decimal.digits ++ List.replicate zeros '0' ++ ['0']) : ℚ) *
        10 ^ (0 - 1 : Int) = _
      rw [List.append_assoc, ← List.replicate_succ', digitsValue_append_zeros, isValue]
      push_cast
      norm_num
      ring
    · split
      · next inside =>
        refine parts ?_ ?_
        · rw [Option.getD_some, List.take_append_drop, isValue]
        · rw [Option.getD_some, List.length_drop]
          show (0 : Int) - _ = _
          omega
      · next outside =>
        refine parts ?_ ?_
        · exact (digitsValue_zeros_append _ _).trans isValue
        · rw [Option.getD_some, List.length_append, List.length_replicate]
          show (0 : Int) - _ = _
          omega
  · refine parts ?_ ?_
    · dsimp only
      split
      · next single =>
        rw [Option.getD_none, List.append_nil, List.take_of_length_le (Nat.le_of_eq single),
            isValue]
      · rw [Option.getD_some, List.take_append_drop, isValue]
    · rw [Numeral.shift_signed]
      dsimp only
      split
      · rw [Option.getD_none, List.length_nil]
        omega
      · rw [Option.getD_some, List.length_drop]
        omega

/-- A numeral of moderate layout has few digits before the point. -/
theorem Layout.length_whole_le {layout : Layout} (moderate : layout.greatest ≤ 18) (negative : Bool)
    (decimal : Decimal) : (layout.numeral negative decimal).whole.length ≤ 19 := by
  rw [Layout.numeral]
  split
  · next plain =>
    split
    · rw [List.length_append, List.length_replicate]
      omega
    · split
      · rw [List.length_take]
        omega
      · exact Nat.one_le_iff_ne_zero.2 (by decide)
  · rw [List.length_take]
    omega

/-! ### Numbers read again -/

/-- The numeral of a number exceeds the number by at most half a step. -/
theorem Layout.magnitude_numeralOf_le (layout : Layout) (format : Format) (value : Binary) :
    (layout.numeralOf format value).magnitude ≤ value.magnitude + 2 ^ value.exponent / 2 := by
  rw [numeralOf]
  split
  · have nonneg := value.magnitude_nonneg
    have isZero (negative : Bool) : Numeral.magnitude ⟨negative, ['0'], some ['0'], none⟩ = 0 :=
      zero_mul _
    rw [isZero]
    positivity
  · rw [magnitude_numeral]
    exact format.magnitude_shortest_le value

theorem Layout.value?_numeralOf_isSome {layout : Layout} (moderate : layout.greatest < 17)
    {format : Format} {value : Binary}
    (inReach : (value.magnitude + 2 ^ value.exponent / 2) * raise ^ 2 < double.limit) :
    (layout.numeralOf format value).value?.isSome := by
  refine Numeral.value?_isSome (proper_numeralOf moderate format value).whole.digits ?_
    (lt_of_le_of_lt (mul_le_mul_of_nonneg_right (layout.magnitude_numeralOf_le format value)
      (by positivity)) inReach)
  rw [numeralOf]
  split
  · exact (by decide : 1 ≤ 19)
  · exact length_whole_le (by omega) _ _

/-- The three greatest doubles are read, though their numerals come close to the limit. -/
theorem value?_numeral_of_greatest :
    ∀ negative : Bool, ∀ gap ∈ [1, 2, 3],
      (Number.real ⟨negative, twoTo 53 - gap, 971⟩).numeral.value?.isSome := by
  decide +kernel

/-- A double below those stays clear of the limit. -/
theorem Format.Holds.inReach {value : Binary} (holds : double.Holds value)
    (below : value.exponent < 971 ∨ value.mantissa + 3 < twoTo 53) :
    (value.magnitude + 2 ^ value.exponent / 2) * raise ^ 2 < double.limit := by
  have bounded : value.magnitude + 2 ^ value.exponent / 2 ≤ (2 ^ 54 - 7) * 2 ^ (970 : Int) := by
    have isHalf : value.magnitude + 2 ^ value.exponent / 2 =
        (2 * value.mantissa + 1) * 2 ^ (value.exponent - 1) := by
      rw [Binary.magnitude, zpow_sub_one₀ two_ne_zero]
      ring
    rw [isHalf]
    rcases below with lower | smaller
    · calc ((2 * value.mantissa + 1) * 2 ^ (value.exponent - 1) : ℚ)
          ≤ 2 ^ 54 * 2 ^ (value.exponent - 1) := by
            refine mul_le_mul_of_nonneg_right ?_ (by positivity)
            exact_mod_cast (by have : value.mantissa < 2 ^ 53 := holds.mantissa; omega :
              2 * value.mantissa + 1 ≤ 2 ^ 54)
        _ ≤ 2 ^ 54 * 2 ^ (969 : Int) := by
            refine mul_le_mul_of_nonneg_left (zpow_le_zpow_right₀ one_le_two (by omega)) ?_
            norm_num
        _ ≤ (2 ^ 54 - 7) * 2 ^ (970 : Int) := by
            rw [show (970 : Int) = 1 + 969 from rfl, zpow_one_add₀ two_ne_zero, ← mul_assoc]
            exact mul_le_mul_of_nonneg_right (by norm_num) (by positivity)
    · refine mul_le_mul ?_ (zpow_le_zpow_right₀ one_le_two ?_) (by positivity) (by norm_num)
      · have : value.mantissa + 4 ≤ 2 ^ 53 := smaller
        have cast : (value.mantissa + 4 : ℚ) ≤ 2 ^ 53 := by exact_mod_cast this
        linarith
      · have := holds.greatest
        simp only [double] at this
        omega
  have power : (0 : ℚ) < 2 ^ (970 : Int) := by positivity
  calc (value.magnitude + 2 ^ value.exponent / 2) * raise ^ 2
      ≤ (2 ^ 54 - 7) * 2 ^ (970 : Int) * raise ^ 2 :=
        mul_le_mul_of_nonneg_right bounded (by positivity)
    _ = ((2 ^ 54 - 7) * raise ^ 2) * 2 ^ (970 : Int) := by ring
    _ < (2 ^ 54 - 1) * 2 ^ (970 : Int) :=
        mul_lt_mul_of_pos_right (by norm_num [raise]) power
    _ = double.limit := rfl

/-- Every double is read from its numeral. -/
theorem value?_numeral_isSome {value : Binary} (holds : double.Holds value) :
    (Number.real value).numeral.value?.isSome := by
  by_cases below : value.exponent < 971 ∨ value.mantissa + 3 < twoTo 53
  · exact Layout.value?_numeralOf_isSome (by decide) (holds.inReach below)
  · obtain ⟨negative, mantissa, exponent⟩ := value
    obtain ⟨small, -, atMost⟩ := holds
    dsimp only at below small atMost
    obtain rfl : exponent = 971 := by
      simp only [double] at atMost
      omega
    have isSmall : mantissa < twoTo 53 := small
    obtain ⟨gap, isGap, rfl⟩ : ∃ gap ∈ [1, 2, 3], mantissa = twoTo 53 - gap := by
      refine ⟨twoTo 53 - mantissa, ?_, by omega⟩
      simp only [List.mem_cons, List.not_mem_nil, or_false]
      omega
    exact value?_numeral_of_greatest negative gap isGap

/-- Every coordinate that is finite is read from its numeral. -/
theorem value?_single_isSome {value : Binary} (holds : single.Holds value) :
    (singleLayout.numeralOf single value).value?.isSome := by
  have mantissa : (value.mantissa : ℚ) ≤ 2 ^ 24 := by
    exact_mod_cast holds.mantissa.le
  have power : (2 : ℚ) ^ value.exponent ≤ 2 ^ (104 : Int) :=
    zpow_le_zpow_right₀ one_le_two holds.greatest
  have magnitude : value.magnitude ≤ 2 ^ 24 * 2 ^ (104 : Int) :=
    mul_le_mul mantissa power (by positivity) (by positivity)
  have inReach : (2 ^ 200 : ℚ) < double.limit := by
    exact_mod_cast cast_lt_limit (2 ^ 200) (by decide +kernel)
  refine Layout.value?_numeralOf_isSome (by decide) (lt_of_le_of_lt ?_ inReach)
  calc (value.magnitude + 2 ^ value.exponent / 2) * raise ^ 2
      ≤ (2 ^ 24 * 2 ^ (104 : Int) + 2 ^ (104 : Int) / 2) * raise ^ 2 :=
        mul_le_mul_of_nonneg_right (by linarith) (by positivity)
    _ ≤ 2 ^ 200 := by norm_num [raise]

/-! ### Coordinates -/

namespace Single

/-- A coordinate that is a number of single precision, unless it is none at all. -/
def InFormat : Single → Prop
  | finite value => single.Holds value
  | infinite _ => True
  | undefined => True

theorem inFormat_ofRounded {negative sign : Bool} {numerator denominator : Nat}
    (positive : 0 < denominator) :
    (ofRounded sign (single.nearest negative numerator denominator)).InFormat := by
  cases isNearest : single.nearest negative numerator denominator with
  | none => trivial
  | some rounded => exact (Format.nearest_spec usable_single positive isNearest).holds

theorem inFormat_ofNat (whole : Nat) : (ofNat whole).InFormat := inFormat_ofRounded Nat.one_pos

/-- Numbers are rounded to coordinates. -/
theorem inFormat_ofNumber (number : Number) : (ofNumber number).InFormat := by
  cases number with
  | int value => exact inFormat_ofRounded Nat.one_pos
  | real value => exact inFormat_ofRounded (twoTo_pos _)

theorem inFormat_mul (first second : Single) : (first.mul second).InFormat := by
  cases first with
  | finite first =>
    cases second with
    | finite second => exact inFormat_ofRounded (twoTo_pos _)
    | infinite negative =>
      rw [mul]
      split <;> trivial
    | undefined => trivial
  | infinite negative =>
    cases second with
    | finite second =>
      rw [mul]
      split <;> trivial
    | infinite other => trivial
    | undefined => trivial
  | undefined => cases second <;> trivial

end Single

end Workflow.Number
