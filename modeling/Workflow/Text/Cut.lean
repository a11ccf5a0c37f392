/-
This file cuts a text at a mark: at its first or its last occurrence, or into
lines.
-/

namespace Workflow.Text

/-- The text before and after the first occurrence of the mark. -/
def cut (mark : Char) : List Char → Option (List Char × List Char)
  | [] => none
  | c :: rest =>
    if c = mark then some ([], rest)
    else (cut mark rest).map fun (before, after) => (c :: before, after)

/-- The text before and after the last occurrence of the mark. -/
def cutLast (mark : Char) (text : List Char) : Option (List Char × List Char) :=
  (cut mark text.reverse).map fun (after, before) => (before.reverse, after.reverse)

/-- The part of the text before the first occurrence of the mark, or all of it. -/
def beforeFirst (mark : Char) (text : List Char) : List Char := text.takeWhile (· ≠ mark)

/-- The part of the text after the last occurrence of the mark, or all of it. -/
def lastPart (mark : Char) (text : List Char) : List Char :=
  (cutLast mark text).elim text (·.2)

/-- The pieces of the text between occurrences of marks; a text without one is a single piece. -/
def splitAll (isMark : Char → Bool) : List Char → List (List Char)
  | [] => [[]]
  | c :: rest =>
    match splitAll isMark rest with
    | [] => [[c]]
    | piece :: pieces => if isMark c then [] :: piece :: pieces else (c :: piece) :: pieces

/-- A line without the carriage return that may precede its line feed. -/
def dropReturn (line : List Char) : List Char :=
  if line.getLast? = some '\r' then line.dropLast else line

/-- The lines of a text. A line ends with a line feed, a carriage return before it belongs to the
ending, and the text after the last line feed is a line unless it is empty. -/
def lines (text : List Char) : List (List Char) :=
  let pieces := splitAll (· == '\n') text
  let last := pieces.getLast?.getD []
  pieces.dropLast.map dropReturn ++ (if last.isEmpty then [] else [last])

/-- The number of occurrences of three marks in a row, counted from the left without overlap. -/
def countFences (mark : Char) : List Char → Nat
  | a :: b :: c :: rest =>
    if a = mark ∧ b = mark ∧ c = mark then countFences mark rest + 1
    else countFences mark (b :: c :: rest)
  | _ => 0

end Workflow.Text
