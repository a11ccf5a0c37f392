/-
This file bounds the lengths of the parts that cutting and splitting yield. The
parts of a split text are shorter than the text, which is why readers that recurse
on them come to an end.
-/

import Workflow.Text.Split

namespace Workflow.Text

theorem length_trimStart_le (text : List Char) : (trimStart text).length ≤ text.length := by
  rw [trimStart]
  exact (List.dropWhile_sublist isBlank).length_le

theorem length_trimEnd_le (text : List Char) : (trimEnd text).length ≤ text.length := by
  have shorter := (List.dropWhile_sublist isBlank (l := text.reverse)).length_le
  rw [List.length_reverse] at shorter
  rwa [trimEnd, List.length_reverse]

theorem length_trim_le (text : List Char) : (trim text).length ≤ text.length :=
  Nat.le_trans (length_trimEnd_le _) (length_trimStart_le text)

/-- Cutting at a mark loses the mark alone. -/
theorem eq_of_cut {mark : Char} {text before after : List Char}
    (found : cut mark text = some (before, after)) : text = before ++ mark :: after := by
  induction text generalizing before with
  | nil => simp [cut] at found
  | cons c rest inductionHypothesis =>
    rw [cut] at found
    split at found
    · next same => simp_all
    · simp only [Option.map_eq_some_iff, Prod.exists, Prod.mk.injEq] at found
      obtain ⟨front, back, foundRest, rfl, rfl⟩ := found
      simp [inductionHypothesis foundRest]

theorem length_marked (scan : Scan) (text : List Char) :
    (marked scan text).length = text.length := by
  induction text generalizing scan with
  | nil => rfl
  | cons c rest inductionHypothesis => simp [marked, inductionHypothesis]

/-- The pieces and the separators between them make up the whole text. -/
theorem length_flatten_piecesBetween (separator : Char) (text : List Marked) :
    (piecesBetween separator text).flatten.length + (piecesBetween separator text).length =
      text.length + 1 := by
  induction text with
  | nil => rfl
  | cons entry rest inductionHypothesis =>
    obtain ⟨c, mark⟩ := entry
    rw [piecesBetween]
    split
    · next empty => rw [empty] at inductionHypothesis; simp at inductionHypothesis
    · next piece pieces split =>
      rw [split] at inductionHypothesis
      simp only [List.flatten_cons, List.length_append, List.length_cons] at inductionHypothesis
      split <;>
        simp only [List.flatten_cons, List.length_append, List.length_cons, List.length_nil] <;>
        omega

theorem length_le_length_flatten {pieces : List (List Char)} {piece : List Char}
    (member : piece ∈ pieces) : piece.length ≤ pieces.flatten.length := by
  induction pieces with
  | nil => simp at member
  | cons first rest inductionHypothesis =>
    rw [List.flatten_cons, List.length_append]
    rcases List.mem_cons.1 member with rfl | inRest
    · omega
    · have := inductionHypothesis inRest
      omega

theorem length_splitTopLevel (separator : Char) (text : List Char) :
    (splitTopLevel separator text).length =
      (piecesBetween separator (marked .start text)).length := by
  rw [splitTopLevel, List.length_map]

theorem length_add_le_of_mem_splitTopLevel {separator : Char} {text piece : List Char}
    (member : piece ∈ splitTopLevel separator text) :
    piece.length + (splitTopLevel separator text).length ≤ text.length + 1 := by
  rw [length_splitTopLevel]
  obtain ⟨raw, inPieces, rfl⟩ := List.mem_map.1 member
  have total := length_flatten_piecesBetween separator (marked .start text)
  have part := length_le_length_flatten inPieces
  have trimmed := length_trim_le raw
  rw [length_marked] at total
  omega

theorem splitTopLevel_ne_nil (separator : Char) (text : List Char) :
    splitTopLevel separator text ≠ [] := by
  intro empty
  have total := length_flatten_piecesBetween separator (marked .start text)
  rw [splitTopLevel, List.map_eq_nil_iff] at empty
  rw [empty] at total
  simp at total

/-- A piece is no longer than the text. -/
theorem length_le_of_mem_splitTopLevel {separator : Char} {text piece : List Char}
    (member : piece ∈ splitTopLevel separator text) : piece.length ≤ text.length := by
  have bound := length_add_le_of_mem_splitTopLevel member
  have := List.length_pos_of_mem member
  omega

/-- Of several pieces each is shorter than the text. -/
theorem length_lt_of_mem_splitTopLevel {separator : Char} {text piece : List Char}
    (member : piece ∈ splitTopLevel separator text)
    (several : 1 < (splitTopLevel separator text).length) : piece.length < text.length := by
  have bound := length_add_le_of_mem_splitTopLevel member
  omega

/-- The arguments of a call are shorter than the text. -/
theorem length_lt_of_splitCall {opening closing : Char} {text head arguments : List Char}
    (call : splitCall opening closing text = some (head, arguments)) :
    arguments.length < text.length := by
  rw [splitCall] at call
  split at call
  · simp at call
  · next before tail found =>
    simp only [Option.ite_none_right_eq_some, Option.some.injEq, Prod.mk.injEq] at call
    obtain ⟨-, -, rfl⟩ := call
    have whole := congrArg List.length (eq_of_cut found)
    have trimmed := length_trim_le text
    rw [List.length_append, List.length_cons] at whole
    rw [List.length_dropLast]
    omega

end Workflow.Text
