/-
This file proves that a source whose declarations take one line each is read line by
line: no line is joined to the next one, cut at a comment or taken for a docstring.
-/

import Workflow.Proofs.Text.Word
import Workflow.Schema.Declaration.Lines

namespace Workflow

/-! ### Lines of a text -/

namespace Text

theorem splitAll_ne_nil (isMark : Char → Bool) (text : List Char) : splitAll isMark text ≠ [] := by
  cases text with
  | nil => exact List.cons_ne_nil _ _
  | cons c rest =>
    rw [splitAll]
    split
    · exact List.cons_ne_nil _ _
    · split <;> exact List.cons_ne_nil _ _

/-- The first piece ends at the first mark. -/
theorem splitAll_append {isMark : Char → Bool} {piece : List Char}
    (unmarked : ∀ c ∈ piece, isMark c = false) {mark : Char} (marks : isMark mark = true)
    (rest : List Char) :
    splitAll isMark (piece ++ mark :: rest) = piece :: splitAll isMark rest := by
  induction piece with
  | nil =>
    rw [List.nil_append, splitAll]
    cases split : splitAll isMark rest with
    | nil => exact absurd split (splitAll_ne_nil isMark rest)
    | cons first others => exact if_pos marks
  | cons c piece inductionHypothesis =>
    obtain ⟨isFirst, others⟩ := List.forall_mem_cons.1 unmarked
    rw [List.cons_append, splitAll, inductionHypothesis others]
    dsimp only
    rw [isFirst, if_neg Bool.false_ne_true]

/-- Lines with their ends are read as these lines. -/
theorem lines_flatMap {all : List (List Char)}
    (oneLine : ∀ line ∈ all, '\n' ∉ line ∧ line.getLast? ≠ some '\r') :
    lines (all.flatMap fun line => line ++ ['\n']) = all := by
  have pieces : splitAll (· == '\n') (all.flatMap fun line => line ++ ['\n']) = all ++ [[]] := by
    induction all with
    | nil => rfl
    | cons line rest inductionHypothesis =>
      obtain ⟨first, others⟩ := List.forall_mem_cons.1 oneLine
      have unmarked : ∀ c ∈ line, (c == '\n') = false := fun c member =>
        beq_eq_false_iff_ne.2 fun same => first.1 (same ▸ member)
      rw [List.flatMap_cons, List.append_assoc, List.singleton_append,
        splitAll_append unmarked (beq_self_eq_true _), inductionHypothesis others,
        List.cons_append]
  have kept : all.map dropReturn = all :=
    (List.map_congr_left fun line member => if_neg (oneLine line member).2).trans (List.map_id' all)
  rw [lines, pieces, List.getLast?_concat, List.dropLast_concat, kept]
  exact List.append_nil all

end Text

namespace Declaration

open Text

/-! ### Lines that hold one declaration -/

/-- What may stand on a line of its own: it starts with a name. -/
structure Statement (body : List Char) : Prop extends IsValue body where
  opening : ∀ c ∈ body.head?, opensName c = true

/-- What a line is indented by. -/
def IsIndent (indent : List Char) : Prop := ∀ c ∈ indent, isBlank c = true ∧ c ≠ '\n'

namespace Statement

variable {indent body : List Char} (statement : Statement body)
include statement

theorem exists_opening : ∃ c rest, body = c :: rest ∧ opensName c = true := by
  obtain ⟨c, rest, rfl, -⟩ := statement.first
  exact ⟨c, rest, rfl, statement.opening c rfl⟩

theorem getLast?_indented : (indent ++ body).getLast? = body.getLast? :=
  List.getLast?_append_of_ne_nil indent statement.ne_nil

theorem trimEnd_indented : trimEnd (indent ++ body) = indent ++ body :=
  trimEnd_eq_self fun c last => statement.last c (statement.getLast?_indented ▸ last)

theorem opensDocstring_eq_false : opensDocstring body = false := by
  obtain ⟨c, rest, rfl, opens⟩ := statement.exists_opening
  have apart {mark : Char} (other : isWord mark = false) : (c == mark) = false :=
    beq_eq_false_iff_ne.2 (ne_of_isWord (isWord_of_opensName opens) other)
  have differs {mark : Char} (other : isWord mark = false) :
      ((c :: rest).take 3 == [mark, mark, mark]) = false := by
    show (c == mark && rest.take 2 == [mark, mark]) = false
    rw [apart other]
    rfl
  rw [opensDocstring, differs rfl, differs rfl]
  rfl

variable (isIndent : IsIndent indent)
include isIndent

theorem trim_indented : trim (indent ++ body) = body := by
  rw [trim, trimStart, List.dropWhile_append_of_pos fun c member => (isIndent c member).1]
  exact statement.trim_eq

theorem indentOf_indented : indentOf (indent ++ body) = byteSize indent := by
  obtain ⟨c, rest, rfl, opens⟩ := statement.exists_opening
  have stop := isBlank_of_isWord (isWord_of_opensName opens)
  rw [indentOf, List.takeWhile_append_of_pos fun c member => (isIndent c member).1,
    List.takeWhile_cons_of_neg (by rw [stop]; exact Bool.false_ne_true), List.append_nil]

theorem balanced_indented : Balanced (indent ++ body) :=
  (balanced_of_plain fun c member => isPlain_of_isBlank (isIndent c member).1).append
    statement.balanced

theorem uncommented_indented : Uncommented (indent ++ body) := by
  have plain : Balanced indent :=
    balanced_of_plain fun c member => isPlain_of_isBlank (isIndent c member).1
  refine Uncommented.append plain (uncommented_of_notMem fun member => ?_) statement.uncommented
  exact absurd (isIndent _ member).1 (by decide)

theorem joinLines_cons (rest : List (List Char)) :
    joinLines [] 0 false ((indent ++ body) :: rest) =
      (indent ++ body) :: joinLines [] 0 false rest := by
  have closed : bracketDelta (indent ++ body) = 0 :=
    congrArg Scan.depth ((statement.balanced_indented isIndent).ends 0)
  have undocumented : ¬((0 : Int) = 0 ∧ opensDocstring (trim (indent ++ body)) = true) := by
    rw [statement.trim_indented isIndent, statement.opensDocstring_eq_false]
    exact fun both => Bool.false_ne_true both.2
  rw [joinLines, if_neg Bool.false_ne_true, if_neg undocumented,
    stripComment_eq_self (statement.uncommented_indented isIndent), statement.trimEnd_indented]
  dsimp only
  rw [closed, if_pos rfl]
  rfl

end Statement

/-- A line that holds a declaration of its own. -/
def IsLine (line : List Char) : Prop :=
  ∃ indent body, line = indent ++ body ∧ IsIndent indent ∧ Statement body

theorem IsLine.oneLine {line : List Char} (isLine : IsLine line) :
    '\n' ∉ line ∧ line.getLast? ≠ some '\r' := by
  obtain ⟨indent, body, rfl, isIndent, statement⟩ := isLine
  refine ⟨fun member => ?_, fun last => ?_⟩
  · rcases List.mem_append.1 member with inIndent | inBody
    · exact (isIndent _ inIndent).2 rfl
    · exact statement.oneLine inBody
  · rw [statement.getLast?_indented] at last
    exact absurd (statement.last _ last) (by decide)

/-- A source of such lines is read as these lines. -/
theorem logicalLines_flatMap {all : List (List Char)} (isLine : ∀ line ∈ all, IsLine line) :
    logicalLines (all.flatMap fun line => line ++ ['\n']) = all := by
  rw [logicalLines, lines_flatMap fun line member => (isLine line member).oneLine]
  induction all with
  | nil => rfl
  | cons line rest inductionHypothesis =>
    obtain ⟨⟨indent, body, rfl, isIndent, statement⟩, others⟩ := List.forall_mem_cons.1 isLine
    rw [statement.joinLines_cons isIndent, inductionHypothesis others]

end Declaration

end Workflow
