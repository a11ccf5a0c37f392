/-
This file proves that numerals are read as they are written.

A numeral is proper if each of its parts has a digit and the digits before the point
do not start with a zero that could be left out. The characters of a proper numeral
are read as that numeral, provided that what follows could not go on with it. The
numerals of integers and of floating-point numbers are proper.
-/

import Mathlib.Data.List.Basic
import Mathlib.Tactic.IntervalCases
import Workflow.Json.Token
import Workflow.Number.Single

namespace Workflow

open Number

/-- One or more decimal digits. -/
structure IsDigits (digits : List Char) : Prop where
  some : digits ≠ []
  digits : ∀ c ∈ digits, c.isDigit = true

/-- The text is at its end, or does not go on with a character of a set. -/
def StartsOutside (isMember : Char → Bool) (text : List Char) : Prop :=
  ∀ c ∈ text.head?, isMember c = false

/-- A character that may stand inside a numeral or go on with it. -/
def continuesNumeral (c : Char) : Bool := c.isDigit || c == '.' || c == 'e' || c == 'E'

theorem startsOutside_cons {isMember : Char → Bool} {c : Char} (outside : isMember c = false)
    (rest : List Char) : StartsOutside isMember (c :: rest) := by
  intro other isHead
  rw [← Option.some.inj isHead]
  exact outside

theorem StartsOutside.digits {text : List Char} (ends : StartsOutside continuesNumeral text) :
    StartsOutside Char.isDigit text := by
  intro c isHead
  have outside := ends c isHead
  simp only [continuesNumeral, Bool.or_eq_false_iff] at outside
  exact outside.1.1.1

/-! ### Digits cut and joined -/

theorem IsDigits.zeros_append {digits : List Char} (isDigits : IsDigits digits) (count : Nat) :
    IsDigits (List.replicate count '0' ++ digits) where
  some := by simp [isDigits.some]
  digits c member := by
    rcases List.mem_append.1 member with isZero | isDigit
    · rw [List.eq_of_mem_replicate isZero]
      decide
    · exact isDigits.digits c isDigit

theorem IsDigits.append_zeros {digits : List Char} (isDigits : IsDigits digits) (count : Nat) :
    IsDigits (digits ++ List.replicate count '0') where
  some := by simp [isDigits.some]
  digits c member := by
    rcases List.mem_append.1 member with isDigit | isZero
    · exact isDigits.digits c isDigit
    · rw [List.eq_of_mem_replicate isZero]
      decide

theorem IsDigits.take {digits : List Char} (isDigits : IsDigits digits) {count : Nat}
    (positive : 0 < count) : IsDigits (digits.take count) where
  some := by
    have := List.length_pos_iff.2 isDigits.some
    rw [← List.length_pos_iff, List.length_take]
    omega
  digits c member := isDigits.digits c (List.mem_of_mem_take member)

theorem IsDigits.drop {digits : List Char} (isDigits : IsDigits digits) {count : Nat}
    (fewer : count < digits.length) : IsDigits (digits.drop count) where
  some := by
    rw [← List.length_pos_iff, List.length_drop]
    omega
  digits c member := isDigits.digits c (List.mem_of_mem_drop member)

theorem isDigits_zero : IsDigits ['0'] := ⟨by decide, List.forall_mem_singleton.2 (by decide)⟩

/-! ### Reading digits -/

section Digits

variable {digits rest : List Char}

theorem scanDigits_append (isDigits : IsDigits digits)
    (ends : StartsOutside Char.isDigit rest) :
    scanDigits (digits ++ rest) = .ok (digits, rest) := by
  have taken : (digits ++ rest).takeWhile Char.isDigit = digits := by
    rw [List.takeWhile_append_of_pos isDigits.digits]
    cases rest with
    | nil => simp
    | cons c rest => simp [ends c rfl]
  have dropped : (digits ++ rest).dropWhile Char.isDigit = rest := by
    rw [List.dropWhile_append_of_pos isDigits.digits]
    cases rest with
    | nil => rfl
    | cons c rest => simp [ends c rfl]
  rw [scanDigits]
  rw [taken, dropped, if_neg]
  rw [List.isEmpty_iff]
  exact isDigits.some

theorem scanWhole_append (isDigits : IsDigits digits)
    (unpadded : digits.head? = some '0' → digits.length = 1)
    (ends : StartsOutside Char.isDigit rest) : scanWhole (digits ++ rest) = .ok (digits, rest) := by
  rw [scanWhole, scanDigits_append isDigits ends]
  refine if_neg fun padded => ?_
  have := unpadded padded.1
  omega

end Digits

/-! ### Proper numerals -/

namespace Number.Numeral

/-- Every part has a digit, and the digits before the point are as short as they can be. -/
structure Proper (numeral : Numeral) : Prop where
  whole : IsDigits numeral.whole
  unpadded : numeral.whole.head? = some '0' → numeral.whole.length = 1
  fraction : ∀ digits ∈ numeral.fraction, IsDigits digits
  exponent : ∀ power ∈ numeral.exponent, IsDigits power.2

/-- The characters of the part after the point. -/
def fractionChars (fraction : Option (List Char)) : List Char := fraction.elim [] ('.' :: ·)

/-- The characters of the exponent. -/
def exponentChars (exponent : Option (Bool × List Char)) : List Char :=
  exponent.elim [] fun (negative, digits) => 'e' :: (if negative then '-' else '+') :: digits

theorem chars_eq (numeral : Numeral) :
    numeral.chars = (if numeral.negative then ['-'] else []) ++
      (numeral.whole ++ (fractionChars numeral.fraction ++ exponentChars numeral.exponent)) := by
  simp only [chars, fractionChars, exponentChars, List.append_assoc]

variable {rest : List Char}

theorem scanExponent_append {exponent : Option (Bool × List Char)}
    (proper : ∀ power ∈ exponent, IsDigits power.2) (ends : StartsOutside continuesNumeral rest) :
    scanExponent (exponentChars exponent ++ rest) = .ok (exponent, rest) := by
  cases exponent with
  | none =>
    cases rest with
    | nil => rfl
    | cons c rest =>
      have outside := ends c rfl
      simp only [continuesNumeral, Bool.or_eq_false_iff, beq_eq_false_iff_ne] at outside
      show scanExponent (c :: rest) = _
      rw [scanExponent, if_neg]
      exact not_or.2 ⟨outside.1.2, outside.2⟩
  | some power =>
    obtain ⟨negative, digits⟩ := power
    have digitsRead := scanDigits_append (proper _ rfl) ends.digits
    have signed : scanSign ((if negative then '-' else '+') :: (digits ++ rest)) =
        (negative, digits ++ rest) := by
      cases negative <;> rfl
    show scanExponent ('e' :: (if negative then '-' else '+') :: (digits ++ rest)) = _
    rw [scanExponent, if_pos (Or.inl rfl), signed, digitsRead]
    rfl

theorem scanFraction_append {fraction : Option (List Char)}
    (proper : ∀ digits ∈ fraction, IsDigits digits) (ends : StartsOutside Char.isDigit rest)
    (pointless : rest.head? ≠ some '.') :
    scanFraction (fractionChars fraction ++ rest) = .ok (fraction, rest) := by
  cases fraction with
  | none =>
    show scanFraction rest = _
    rw [scanFraction.eq_def]
    split
    · exact absurd rfl pointless
    · rfl
  | some digits =>
    show scanFraction ('.' :: (digits ++ rest)) = _
    rw [scanFraction, scanDigits_append (proper _ rfl) ends]
    rfl

theorem head?_exponentChars_append {isMember : Char → Bool}
    {exponent : Option (Bool × List Char)} (outside : isMember 'e' = false)
    (ends : StartsOutside isMember rest) :
    StartsOutside isMember (exponentChars exponent ++ rest) := by
  cases exponent with
  | none => exact ends
  | some power => exact startsOutside_cons outside _

/-- A proper numeral starts with a sign or a digit. -/
theorem Proper.exists_opening {numeral : Numeral} (proper : numeral.Proper) :
    ∃ c tail, numeral.chars = c :: tail ∧ (c = '-' ∨ c.isDigit = true) := by
  obtain ⟨negative, whole, fraction, exponent⟩ := numeral
  rw [chars_eq]
  cases negative with
  | true => exact ⟨'-', _, rfl, Or.inl rfl⟩
  | false =>
    obtain ⟨isSome, isDigits⟩ := proper.whole
    dsimp only at isSome isDigits
    cases whole with
    | nil => exact absurd rfl isSome
    | cons c whole => exact ⟨c, _, rfl, Or.inr (isDigits c List.mem_cons_self)⟩

/-- A proper numeral is read as it is written. -/
theorem Proper.scanNumeral_append {numeral : Numeral} (proper : numeral.Proper)
    (ends : StartsOutside continuesNumeral rest) :
    scanNumeral (numeral.chars ++ rest) = .ok (numeral, rest) := by
  obtain ⟨negative, whole, fraction, exponent⟩ := numeral
  have afterFraction : StartsOutside Char.isDigit (exponentChars exponent ++ rest) :=
    head?_exponentChars_append (by decide) ends.digits
  have pointless : (exponentChars exponent ++ rest).head? ≠ some '.' := by
    intro isPoint
    have outside : StartsOutside (· == '.') (exponentChars exponent ++ rest) := by
      refine head?_exponentChars_append (by decide) fun c isHead => ?_
      have outside := ends c isHead
      simp only [continuesNumeral, Bool.or_eq_false_iff] at outside
      exact outside.1.1.2
    exact absurd (outside '.' isPoint) (by decide)
  have afterWhole : StartsOutside Char.isDigit
      (fractionChars fraction ++ (exponentChars exponent ++ rest)) := by
    cases fraction with
    | none => exact afterFraction
    | some digits => exact startsOutside_cons (by decide) _
  have unsigned : scanMinus (chars ⟨negative, whole, fraction, exponent⟩ ++ rest) =
      (negative, whole ++ (fractionChars fraction ++ (exponentChars exponent ++ rest))) := by
    rw [chars_eq]
    cases negative with
    | true => simp [scanMinus]
    | false =>
      obtain ⟨isSome, isDigits⟩ := proper.whole
      dsimp only at isSome isDigits
      cases whole with
      | nil => exact absurd rfl isSome
      | cons c whole =>
        have notMinus : c ≠ '-' := by
          rintro rfl
          exact absurd (isDigits '-' List.mem_cons_self) (by decide)
        simp [scanMinus.eq_def, notMinus]
  have wholeRead := scanWhole_append proper.whole proper.unpadded afterWhole
  have fractionRead := scanFraction_append proper.fraction afterFraction pointless
  have exponentRead := scanExponent_append proper.exponent ends
  rw [scanNumeral, unsigned]
  simp only [wholeRead, fractionRead, exponentRead, bind, Except.bind]

end Number.Numeral

/-! ### Numerals of integers -/

namespace Number

theorem isDigits_decimalDigits (n : Nat) : IsDigits (decimalDigits n) where
  some := Nat.toDigits_ne_nil
  digits _ member := Nat.isDigit_of_mem_toDigits (by decide) (by decide) member

theorem digitsValue_decimalDigits (n : Nat) : digitsValue (decimalDigits n) = n :=
  Nat.ofDigitChars_ten_toDigits

/-- Only zero is written with a zero in front. -/
theorem eq_zero_of_head?_decimalDigits {n : Nat} (padded : (decimalDigits n).head? = some '0') :
    n = 0 := by
  induction n using Nat.strongRecOn with
  | ind n inductionHypothesis =>
    rw [decimalDigits, Nat.toDigits_eq_if (by decide)] at padded
    split at padded
    · next small => interval_cases n <;> first | rfl | exact absurd padded (by decide)
    · next large =>
      rw [List.head?_append_of_ne_nil _ Nat.toDigits_ne_nil] at padded
      have := inductionHypothesis (n / 10) (by omega) padded
      omega

theorem length_decimalDigits_of_head? {n : Nat} (padded : (decimalDigits n).head? = some '0') :
    (decimalDigits n).length = 1 := by
  rw [eq_zero_of_head?_decimalDigits padded]
  rfl

theorem Numeral.proper_ofInt (value : Int) : (Numeral.ofInt value).Proper where
  whole := isDigits_decimalDigits value.natAbs
  unpadded := length_decimalDigits_of_head?
  fraction := by rintro _ ⟨⟩
  exponent := by rintro _ ⟨⟩

/-! ### Numerals of floating-point numbers -/

/-- A decimal has a proper numeral if it is not zero; zero has one if it is written with an
exponent. -/
theorem Layout.proper_numeral (layout : Layout) (negative : Bool) {decimal : Decimal}
    (nonzero : decimal.digits ≠ 0 ∨ layout.greatest < decimal.exponent) :
    (layout.numeral negative decimal).Proper := by
  have isDigits := isDigits_decimalDigits decimal.digits
  have someDigit := List.length_pos_iff.2 isDigits.some
  have unpadded (short : decimal.exponent + ((decimalDigits decimal.digits).length - 1) ≤
      layout.greatest) : (decimalDigits decimal.digits).head? ≠ some '0' := by
    intro padded
    rcases nonzero with nonzero | large
    · exact nonzero (eq_zero_of_head?_decimalDigits padded)
    · omega
  rw [Layout.numeral]
  split
  · next plain =>
    split
    · refine ⟨isDigits.append_zeros _, fun padded => absurd ?_ (unpadded plain.2), ?_, ?_⟩
      · rw [List.head?_append_of_ne_nil _ isDigits.some] at padded
        exact padded
      · rintro _ ⟨⟩
        exact isDigits_zero
      · rintro _ ⟨⟩
    · split
      · refine ⟨isDigits.take (Nat.succ_pos _), fun padded => absurd ?_ (unpadded plain.2), ?_, ?_⟩
        · rw [List.head?_take, if_neg (Nat.succ_ne_zero _)] at padded
          exact padded
        · rintro _ ⟨⟩
          exact isDigits.drop (by omega)
        · rintro _ ⟨⟩
      · refine ⟨isDigits_zero, fun _ => rfl, ?_, ?_⟩
        · rintro _ ⟨⟩
          exact isDigits.zeros_append _
        · rintro _ ⟨⟩
  · refine ⟨isDigits.take Nat.one_pos, fun _ => ?_, ?_, ?_⟩
    · rw [List.length_take]
      omega
    · intro digits isFraction
      dsimp only at isFraction
      split at isFraction
      · cases isFraction
      · cases isFraction
        exact isDigits.drop (by omega)
    · rintro _ ⟨⟩
      exact isDigits_decimalDigits _

/-- Points of a grid that lie in an interval above zero are not zero. -/
theorem Grid.pos_of_within {grid : Grid} {interval : Interval} {point : Nat}
    (scaled : 0 < grid.scale) (above : 0 < interval.low)
    (isWithin : grid.within interval point = true) : 0 < point := by
  have least : interval.low * grid.scale ≤ point * grid.unit := by
    rw [Grid.within] at isWithin
    split at isWithin
    · simp only [Bool.and_eq_true, decide_eq_true_eq] at isWithin
      exact isWithin.1
    · simp only [Bool.and_eq_true, decide_eq_true_eq] at isWithin
      exact isWithin.1.le
  have := Nat.mul_pos above scaled
  have positive : 0 < point * grid.unit := by omega
  exact Nat.pos_of_mul_pos_right positive

theorem Grid.digits_pos_of_hit {grid : Grid} {interval : Interval} {decimal : Decimal}
    (scaled : 0 < grid.scale) (above : 0 < interval.low)
    (isHit : grid.hit interval = some decimal) : 0 < decimal.digits := by
  simp only [Grid.hit] at isHit
  obtain ⟨point, found, rfl⟩ := Option.map_eq_some_iff.1 isHit
  split at found
  · next belowWithin _ =>
    split at found
    · cases found
      exact Grid.pos_of_within scaled above belowWithin
    · cases found
      exact Nat.succ_pos _
  · next belowWithin _ =>
    cases found
    exact Grid.pos_of_within scaled above belowWithin
  · cases found
    exact Nat.succ_pos _
  · cases found

theorem Decimal.strip_of_eq_zero (limit : Nat) (exponent : Int) :
    Decimal.strip limit ⟨0, exponent⟩ = ⟨0, exponent + limit⟩ := by
  induction limit generalizing exponent with
  | zero => simp [Decimal.strip]
  | succ limit inductionHypothesis =>
    rw [Decimal.strip, if_pos (Nat.zero_mod 10)]
    show Decimal.strip limit ⟨0 / 10, exponent + 1⟩ = _
    rw [Nat.zero_div, inductionHypothesis]
    congr 1
    omega

theorem Decimal.digits_strip_pos {limit : Nat} {decimal : Decimal} (positive : 0 < decimal.digits) :
    0 < (decimal.strip limit).digits := by
  induction limit generalizing decimal with
  | zero => exact positive
  | succ limit inductionHypothesis =>
    rw [Decimal.strip]
    split
    · exact inductionHypothesis (by dsimp only; omega)
    · exact positive

/-- The shortest decimal is not zero, or too large to be written without an exponent. -/
theorem Format.digits_shortest_ne_zero (format : Format) {value : Binary}
    (nonzero : value.mantissa ≠ 0) :
    (format.shortest value).digits ≠ 0 ∨ format.shortest value = ⟨0, 17⟩ := by
  rw [Format.shortest]
  generalize hits : List.findSome? _ (List.range 17) = found
  cases found with
  | none => exact Or.inr (Decimal.strip_of_eq_zero 17 0)
  | some decimal =>
    obtain ⟨index, _, isHit⟩ := List.exists_of_findSome?_eq_some hits
    refine Or.inl (Nat.pos_iff_ne_zero.1 (Decimal.digits_strip_pos ?_))
    refine Grid.digits_pos_of_hit ?_ ?_ isHit
    · exact Nat.mul_pos (Nat.pow_pos (by decide)) (Nat.pow_pos (by decide))
    · rw [Format.interval]
      dsimp only
      split <;> omega

theorem Layout.proper_numeralOf {layout : Layout} (bounded : layout.greatest < 17)
    (format : Format) (value : Binary) : (layout.numeralOf format value).Proper := by
  rw [Layout.numeralOf]
  split
  · refine ⟨isDigits_zero, fun _ => rfl, ?_, ?_⟩
    · rintro _ ⟨⟩
      exact isDigits_zero
    · rintro _ ⟨⟩
  · next nonzero =>
    refine Layout.proper_numeral _ _ ((format.digits_shortest_ne_zero nonzero).imp_right ?_)
    intro isZero
    rw [isZero]
    exact bounded

/-- Numbers are written as proper numerals. -/
theorem proper_numeral (value : Number) : value.numeral.Proper := by
  cases value with
  | int value => exact Numeral.proper_ofInt value
  | real value => exact Layout.proper_numeralOf (by decide) _ _

/-- So are coordinates that are finite. -/
theorem Single.proper_numeral? {value : Single} {numeral : Numeral}
    (isNumeral : value.numeral? = some numeral) : numeral.Proper := by
  cases value with
  | finite value =>
    cases isNumeral
    exact Layout.proper_numeralOf (by decide) _ _
  | infinite negative => cases isNumeral
  | undefined => cases isNumeral

end Number

end Workflow
