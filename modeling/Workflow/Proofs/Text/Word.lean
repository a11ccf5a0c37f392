/-
This file proves what names are made of.

A word character is neither a blank nor a mark that the reading of sources looks for, so
a name is read up to the first character behind it, and nothing divides it.
-/

import Workflow.Proofs.Text.Quoted
import Workflow.Text.Word

namespace Workflow.Text

/-! ### Word characters -/

section Characters

variable {c : Char} (word : isWord c = true)
include word

theorem ne_of_isWord {mark : Char} (other : isWord mark = false) : c ≠ mark := by
  rintro rfl
  exact Bool.false_ne_true (other.symm.trans word)

theorem isPlain_of_isWord : isPlain c = true := by
  have apart (mark : Char) (other : isWord mark = false) : (c == mark) = false :=
    beq_eq_false_iff_ne.2 (ne_of_isWord word other)
  simp only [isPlain, isQuote, isOpener, isCloser, apart '"' rfl, apart '\'' rfl, apart '(' rfl,
    apart '[' rfl, apart '\x7b' rfl, apart ')' rfl, apart ']' rfl, apart '\x7d' rfl]
  rfl

end Characters

/-- The code points of the blanks. -/
def blankCodes : List Nat :=
  [9, 10, 11, 12, 13, 0x20, 0x85, 0xa0, 0x1680, 0x2000, 0x2001, 0x2002, 0x2003, 0x2004, 0x2005,
    0x2006, 0x2007, 0x2008, 0x2009, 0x200a, 0x2028, 0x2029, 0x202f, 0x205f, 0x3000]

theorem toNat_mem_blankCodes {c : Char} (blank : isBlank c = true) : c.toNat ∈ blankCodes := by
  simp only [isBlank, Bool.or_eq_true, Bool.and_eq_true, decide_eq_true_eq, beq_iff_eq] at blank
  simp only [blankCodes, List.mem_cons, List.not_mem_nil, or_false]
  omega

theorem isWord_blankCodes : ∀ code ∈ blankCodes, isWord (Char.ofNat code) = false := by
  decide +kernel

theorem isBlank_of_isWord {c : Char} (word : isWord c = true) : isBlank c = false := by
  by_contra blank
  have other := isWord_blankCodes _ (toNat_mem_blankCodes (Bool.of_not_eq_false blank))
  rw [Char.ofNat_toNat] at other
  exact Bool.false_ne_true (other.symm.trans word)

theorem isPlain_of_isBlank {c : Char} (blank : isBlank c = true) : isPlain c = true := by
  have codes : ∀ code ∈ blankCodes, isPlain (Char.ofNat code) = true := by decide
  rw [← Char.ofNat_toNat c]
  exact codes _ (toNat_mem_blankCodes blank)

theorem isBlank_of_isCloser {c : Char} (closes : isCloser c = true) : isBlank c = false := by
  simp only [isCloser, Bool.or_eq_true, beq_iff_eq] at closes
  obtain (rfl | rfl) | rfl := closes <;> rfl

theorem isWord_of_opensName {c : Char} (opens : opensName c = true) : isWord c = true := by
  rw [opensName, Bool.or_eq_true] at opens
  rw [isWord, isAsciiWord, Char.isAlphanum]
  obtain letter | underscore := opens
  · simp [letter]
  · simp [underscore]

/-! ### Names -/

/-- Whether a text is a name of a source. -/
def isIdentifier : List Char → Bool
  | [] => false
  | c :: rest => opensName c && rest.all isWord

theorem exists_of_isIdentifier {name : List Char} (named : isIdentifier name = true) :
    ∃ c rest, name = c :: rest ∧ opensName c = true ∧ ∀ d ∈ rest, isWord d = true := by
  cases name with
  | nil => cases named
  | cons c rest =>
    rw [isIdentifier, Bool.and_eq_true, List.all_eq_true] at named
    exact ⟨c, rest, rfl, named⟩

theorem isWord_of_isIdentifier {name : List Char} (named : isIdentifier name = true) :
    ∀ c ∈ name, isWord c = true := by
  obtain ⟨c, rest, rfl, opens, words⟩ := exists_of_isIdentifier named
  exact List.forall_mem_cons.2 ⟨isWord_of_opensName opens, words⟩

/-- A character of no word does not occur in names. -/
theorem notMem_of_isIdentifier {name : List Char} (named : isIdentifier name = true) {mark : Char}
    (other : isWord mark = false) : mark ∉ name :=
  fun member => ne_of_isWord (isWord_of_isIdentifier named mark member) other rfl

/-! ### Texts within a line -/

/-- A text that may stand within a line, up to its end. -/
structure IsValue (text : List Char) : Prop where
  first : ∃ c rest, text = c :: rest ∧ isBlank c = false
  last : ∀ c ∈ text.getLast?, isBlank c = false
  oneLine : '\n' ∉ text
  balanced : Balanced text
  uncommented : Uncommented text

theorem IsValue.ne_nil {text : List Char} (isValue : IsValue text) : text ≠ [] := by
  obtain ⟨c, rest, rfl, -⟩ := isValue.first
  exact List.cons_ne_nil c rest

theorem IsValue.trim_eq {text : List Char} (isValue : IsValue text) : trim text = text := by
  obtain ⟨c, rest, rfl, visible⟩ := isValue.first
  refine trim_eq_self ?_ isValue.last
  rintro _ ⟨⟩
  exact visible

theorem IsValue.trimStart_eq {text : List Char} (isValue : IsValue text) :
    trimStart text = text := by
  obtain ⟨c, rest, rfl, visible⟩ := isValue.first
  exact List.dropWhile_cons_of_neg (by rw [visible]; exact Bool.false_ne_true)

theorem IsValue.trimStart_cons {text : List Char} (isValue : IsValue text) {c : Char}
    (blank : isBlank c = true) : trimStart (c :: text) = text := by
  rw [trimStart, List.dropWhile_cons_of_pos blank]
  exact isValue.trimStart_eq

/-- A character that is neither a blank nor of a meaning between words. -/
def isBare (c : Char) : Bool := isPlain c && !isBlank c && c != '#'

theorem isValue_of_bare {text : List Char} (nonempty : text ≠ [])
    (bare : ∀ c ∈ text, isBare c = true) : IsValue text := by
  have isBare_iff {c : Char} (member : c ∈ text) :
      isPlain c = true ∧ isBlank c = false ∧ c ≠ '#' := by
    simpa [isBare, and_assoc] using bare c member
  refine ⟨?_, fun c last => (isBare_iff (List.mem_of_getLast? last)).2.1, fun member => ?_,
    balanced_of_plain fun c member => (isBare_iff member).1,
    uncommented_of_notMem fun member => (isBare_iff member).2.2 rfl⟩
  · obtain ⟨c, rest, rfl⟩ := List.exists_cons_of_ne_nil nonempty
    exact ⟨c, rest, rfl, (isBare_iff List.mem_cons_self).2.1⟩
  · exact absurd (isBare_iff member).2.1 (by decide)

/-- A word with a text in brackets behind it. -/
theorem isValue_enclosed {head : List Char} (isHead : IsValue head) {opening closing : Char}
    (opens : isOpener opening = true) (closes : isCloser closing = true) {inner : List Char}
    (oneLine : '\n' ∉ inner) (balanced : Balanced inner) (uncommented : Uncommented inner) :
    IsValue (head ++ opening :: (inner ++ [closing])) := by
  refine ⟨?_, fun c last => ?_, fun member => ?_,
    isHead.balanced.append (balanced.enclosed opens closes),
    .append isHead.balanced isHead.uncommented (.enclosed opens closes balanced uncommented)⟩
  · obtain ⟨c, rest, rfl, visible⟩ := isHead.first
    exact ⟨c, rest ++ opening :: (inner ++ [closing]), rfl, visible⟩
  · have isLast : (head ++ opening :: (inner ++ [closing])).getLast? = some closing := by
      rw [List.append_cons, ← List.append_assoc, List.getLast?_concat]
    rw [isLast] at last
    cases last
    exact isBlank_of_isCloser closes
  · rcases List.mem_append.1 member with inHead | inBrackets
    · exact isHead.oneLine inHead
    · rcases List.mem_cons.1 inBrackets with rfl | inRest
      · cases opens
      · rcases List.mem_append.1 inRest with inInner | isClosing
        · exact oneLine inInner
        · obtain rfl := List.mem_singleton.1 isClosing
          cases closes

/-- A character that may stand between words: no blank but of the line. -/
def isSpacing (c : Char) : Bool := isPlain c && c != '\n' && c != '#'

theorem isSpacing_iff {c : Char} :
    isSpacing c = true ↔ isPlain c = true ∧ c ≠ '\n' ∧ c ≠ '#' := by
  simp [isSpacing, and_assoc]

theorem isBare_of_isWord {c : Char} (word : isWord c = true) : isBare c = true := by
  have apart : c ≠ '#' := ne_of_isWord word rfl
  simp [isBare, isPlain_of_isWord word, isBlank_of_isWord word, apart]

theorem isValue_of_isIdentifier {name : List Char} (named : isIdentifier name = true) :
    IsValue name := by
  obtain ⟨c, rest, rfl, -⟩ := exists_of_isIdentifier named
  exact isValue_of_bare (List.cons_ne_nil c rest) fun d member =>
    isBare_of_isWord (isWord_of_isIdentifier named d member)

/-- Texts next to each other, apart from plain characters between them. -/
theorem IsValue.append {first between last : List Char} (isFirst : IsValue first)
    (spacing : ∀ c ∈ between, isSpacing c = true) (isLast : IsValue last) :
    IsValue (first ++ (between ++ last)) := by
  have plain (c : Char) (member : c ∈ between) := isSpacing_iff.1 (spacing c member)
  have balanced : Balanced between := balanced_of_plain fun c member => (plain c member).1
  refine ⟨?_, fun c ends => ?_, fun member => ?_,
    isFirst.balanced.append (balanced.append isLast.balanced),
    .append isFirst.balanced isFirst.uncommented (.append balanced
      (uncommented_of_notMem fun member => (plain _ member).2.2 rfl) isLast.uncommented)⟩
  · obtain ⟨c, rest, rfl, visible⟩ := isFirst.first
    exact ⟨c, rest ++ (between ++ last), rfl, visible⟩
  · rw [← List.append_assoc, List.getLast?_append_of_ne_nil _ isLast.ne_nil] at ends
    exact isLast.last c ends
  · rcases List.mem_append.1 member with inFirst | inRest
    · exact isFirst.oneLine inFirst
    · rcases List.mem_append.1 inRest with inBetween | inLast
      · exact (plain _ inBetween).2.1 rfl
      · exact isLast.oneLine inLast

theorem Quote.isValue_literal (quote : Quote) (content : List Char) :
    IsValue (quote.literal content) := by
  have visible : isBlank quote.char = false := by cases quote <;> rfl
  refine ⟨⟨_, _, rfl, visible⟩, fun c last => ?_, notMem_literal quote content,
    balanced_literal quote content, uncommented_literal quote content⟩
  rw [literal, ← List.cons_append, List.getLast?_concat] at last
  cases last
  exact visible

end Workflow.Text
