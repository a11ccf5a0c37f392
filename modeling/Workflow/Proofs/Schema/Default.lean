/-
This file proves that a written literal is read as the default with its value: it is
one word, one numeral, one string literal or an empty pair of brackets, and none of
these is taken for another or for a call.
-/

import Workflow.Proofs.Number.Numeral
import Workflow.Proofs.Schema.Written
import Workflow.Schema.Declaration.Member

namespace Workflow

open Text Number Declaration

/-! ### Words -/

namespace Declaration

/-- A word that stands for a value starts with a letter, a dot or a bracket. -/
theorem wordStart_eq_none {c : Char} (other : c.isDigit = true ∨ isQuote c = true ∨ c = '-')
    (rest : List Char) : wordStart (String.ofList (c :: rest)) = none := by
  have apart {first : Char} (letter : first.isDigit = false ∧ isQuote first = false ∧ first ≠ '-')
      {tail : List Char} : String.ofList (c :: rest) ≠ String.ofList (first :: tail) := by
    intro same
    obtain ⟨rfl, -⟩ := List.cons.inj (String.ofList_injective same)
    simp [letter] at other
  rw [wordStart.eq_def]
  split
  · next same => exact absurd (String.ofList_injective same) (List.cons_ne_nil c rest)
  all_goals first | rfl | next same => exact absurd same (apart (by decide))

/-- A text that starts with a quote is no call of a name. -/
theorem fieldCall_eq_none_of_quote (quote : Quote) (rest : List Char) :
    fieldCall (quote.char :: rest) = none := by
  have visible : isBlank quote.char = false := by cases quote <;> rfl
  have apart : quote.char ≠ '(' := by cases quote <;> decide
  rw [fieldCall, splitApplication, splitCall, trim_cons visible, cut, if_neg apart]
  cases cut '(' (trimEnd rest) with
  | none => rfl
  | some parts =>
    dsimp only [Option.map_some]
    split
    · next head arguments call =>
      split at call
      · cases call
        rw [trim_cons visible, if_neg]
        intro same
        cases quote <;> cases (List.cons.inj same).1
      · cases call
    · rfl

/-! ### Integers -/

theorem scanSign_digits {digits : List Char} (isDigits : IsDigits digits) :
    scanSign digits = (false, digits) := by
  obtain ⟨some, digits⟩ := isDigits
  rw [scanSign.eq_def]
  split
  · cases digits '-' List.mem_cons_self
  · cases digits '+' List.mem_cons_self
  · rfl

theorem readNumeral_ofInt (value : Int) :
    readNumeral (Numeral.ofInt value).chars = some (.ofInt value) := by
  have isDigits := isDigits_decimalDigits value.natAbs
  have whole : (decimalDigits value.natAbs).takeWhile Char.isDigit = decimalDigits value.natAbs :=
    List.takeWhile_eq_self_iff.2 isDigits.digits
  have rest : (decimalDigits value.natAbs).dropWhile Char.isDigit = [] :=
    List.dropWhile_eq_nil_iff.2 isDigits.digits
  have signed : scanSign (Numeral.ofInt value).chars =
      (decide (value < 0), decimalDigits value.natAbs) := by
    by_cases negative : value < 0
    · simp [Numeral.chars, Numeral.ofInt, negative, scanSign]
    · simp [Numeral.chars, Numeral.ofInt, negative, scanSign_digits isDigits]
  have some : (decimalDigits value.natAbs).isEmpty = false :=
    List.isEmpty_eq_false_iff.2 isDigits.some
  rw [readNumeral, signed]
  dsimp only
  rw [whole, rest]
  simp only [readExponent, some]
  rfl

theorem numeralStart_ofInt {value : Int} (least : -(2 : Int) ^ 63 ≤ value)
    (most : value < (2 : Int) ^ 63) : numeralStart (.ofInt value) = .int value := by
  have signed : (if (Numeral.ofInt value).negative then
      -(digitsValue (Numeral.ofInt value).whole : Int)
      else digitsValue (Numeral.ofInt value).whole) = value := by
    simp only [Numeral.ofInt, digitsValue_decimalDigits, decide_eq_true_eq]
    split <;> omega
  have bound : (twoTo 63 : Int) = 2 ^ 63 := rfl
  rw [numeralStart, signed, if_pos]
  exact ⟨rfl, rfl, bound ▸ least, bound ▸ most⟩

/-! ### Kinds of defaults -/

section Kinds

variable {text : List Char} (constants : Constants)

theorem readDefault_of_word {value : Json}
    (found : wordStart (String.ofList (trim text)) = some (some value)) :
    readDefault constants text = some (.literal value) := by
  rw [readDefault]
  simp only [found, Option.map_some]

variable (noWord : wordStart (String.ofList (trim text)) = none)
include noWord

theorem readDefault_of_unquote {content : List Char} (found : unquote (trim text) = some content) :
    readDefault constants text = some (.literal (.string (String.ofList content))) := by
  rw [readDefault]
  simp only [noWord, found]

theorem readDefault_of_numeral (noText : unquote (trim text) = none) {numeral : Numeral}
    (found : readNumeral (trim text) = some numeral) :
    readDefault constants text = some (.literal (numeralStart numeral)) := by
  rw [readDefault]
  simp only [noWord, noText, found]

end Kinds

end Declaration

/-! ### Literals -/

namespace Literal

theorem exists_chars_int (value : Int) : ∃ c rest, (Numeral.ofInt value).chars = c :: rest ∧
    (c.isDigit = true ∨ c = '-') ∧ ∀ d ∈ rest, d.isDigit = true := by
  obtain ⟨some, digits⟩ := isDigits_decimalDigits value.natAbs
  by_cases negative : value < 0
  · refine ⟨'-', decimalDigits value.natAbs, ?_, .inr rfl, digits⟩
    simp [Numeral.chars, Numeral.ofInt, negative]
  · obtain ⟨c, rest, spelled⟩ := List.exists_cons_of_ne_nil some
    rw [spelled, List.forall_mem_cons] at digits
    refine ⟨c, rest, ?_, .inl digits.1, digits.2⟩
    simp [Numeral.chars, Numeral.ofInt, negative, spelled]

theorem unquote_eq_none {c : Char} (bare : isBare c = true) (rest : List Char) :
    unquote (c :: rest) = none := by
  simp only [isBare, isPlain, Bool.and_eq_true, Bool.not_eq_true'] at bare
  rw [unquote, unquoteBetween, if_neg, if_neg]
  · simp [bare]
  · simp [bare]

theorem isBare_int {value : Int} : ∀ c ∈ (Numeral.ofInt value).chars, isBare c = true := by
  have digit {c : Char} (isDigit : c.isDigit = true) : isBare c = true := by
    refine isBare_of_isWord ?_
    simp [isWord, isAsciiWord, Char.isAlphanum, isDigit]
  obtain ⟨c, rest, spelled, first, others⟩ := exists_chars_int value
  rw [spelled]
  refine List.forall_mem_cons.2 ⟨?_, fun d member => digit (others d member)⟩
  obtain isDigit | rfl := first
  · exact digit isDigit
  · decide

theorem isValue (literal : Literal) : IsValue literal.chars := by
  have brackets {opening closing : Char} (opens : isOpener opening = true)
      (closes : isCloser closing = true) : Balanced [opening, closing] :=
    balanced_nil.enclosed opens closes
  cases literal with
  | null wording =>
    cases wording <;> exact isValue_of_bare (by decide) (List.all_eq_true.1 (by decide))
  | bool wording value =>
    cases wording <;> cases value <;>
      exact isValue_of_bare (by decide) (List.all_eq_true.1 (by decide))
  | int value =>
    refine isValue_of_bare ?_ isBare_int
    obtain ⟨c, rest, spelled, -⟩ := exists_chars_int value.toInt
    rw [chars, spelled]
    exact List.cons_ne_nil c rest
  | text quote content => exact quote.isValue_literal content.toList
  | list =>
    exact ⟨⟨_, _, rfl, rfl⟩, by rintro _ ⟨⟩; rfl, by decide, brackets rfl rfl,
      uncommented_of_notMem (by decide)⟩
  | object =>
    exact ⟨⟨_, _, rfl, rfl⟩, by rintro _ ⟨⟩; rfl, by decide, brackets rfl rfl,
      uncommented_of_notMem (by decide)⟩

/-- A literal is read as the default with its value. -/
theorem readDefault_chars (literal : Literal) (constants : Constants) :
    readDefault constants literal.chars = some (.literal literal.value) := by
  have trimmed := literal.isValue.trim_eq
  cases literal with
  | null wording => cases wording <;> exact readDefault_of_word constants rfl
  | bool wording value =>
    cases wording <;> cases value <;> exact readDefault_of_word constants rfl
  | int value =>
    obtain ⟨c, rest, spelled, first, -⟩ := exists_chars_int value.toInt
    have noWord : wordStart (String.ofList (trim (int value).chars)) = none := by
      rw [trimmed, chars, spelled]
      exact wordStart_eq_none (first.imp_right .inr) rest
    have noText : unquote (trim (int value).chars) = none := by
      have bare := isBare_int c (spelled ▸ List.mem_cons_self)
      rw [trimmed, chars, spelled]
      exact unquote_eq_none bare rest
    have found : readNumeral (trim (int value).chars) = some (.ofInt value.toInt) := by
      rw [trimmed]
      exact readNumeral_ofInt value.toInt
    rw [readDefault_of_numeral constants noWord noText found,
      numeralStart_ofInt value.le_toInt value.toInt_lt]
    rfl
  | text quote content =>
    have noWord : wordStart (String.ofList (trim (text quote content).chars)) = none := by
      rw [trimmed]
      exact wordStart_eq_none (.inr (.inl quote.isQuote_char)) _
    have found : unquote (trim (text quote content).chars) = some content.toList := by
      rw [trimmed]
      exact quote.unquote_literal content.toList
    rw [readDefault_of_unquote constants noWord found, String.ofList_toList]
    rfl
  | list => exact readDefault_of_word constants rfl
  | object => exact readDefault_of_word constants rfl

theorem fieldCall_chars (literal : Literal) : fieldCall literal.chars = none := by
  have of_notMem (absent : '(' ∉ literal.chars) : fieldCall literal.chars = none := by
    rw [fieldCall, splitApplication, splitCall_eq_none absent]
  cases literal with
  | null wording => cases wording <;> exact of_notMem (by decide)
  | bool wording value => cases wording <;> cases value <;> exact of_notMem (by decide)
  | int value => exact of_notMem fun member => absurd (isBare_int _ member) (by decide)
  | text quote content => exact fieldCall_eq_none_of_quote quote _
  | list => exact of_notMem (by decide)
  | object => exact of_notMem (by decide)

end Literal

end Workflow
