/-
This file splits texts where no literal and no bracket is open: at separators, at
an assignment sign, and at the brackets of a call.
-/

import Workflow.Text.Blank
import Workflow.Text.Cut
import Workflow.Text.Marked

namespace Workflow.Text

/-- The untrimmed pieces of a marked text between separators at depth zero. -/
def piecesBetween (separator : Char) : List Marked → List (List Char)
  | [] => [[]]
  | (c, mark) :: rest =>
    match piecesBetween separator rest with
    | [] => [[c]]
    | piece :: pieces =>
      if c = separator ∧ mark = some 0 then [] :: piece :: pieces else (c :: piece) :: pieces

/-- The trimmed pieces of a text between separators outside literals and brackets. -/
def splitTopLevel (separator : Char) (text : List Char) : List (List Char) :=
  (piecesBetween separator (marked .start text)).map trim

/-- The marks that turn a following equals sign into a comparison. -/
def isComparisonStart (c : Char) : Bool := c == '=' || c == '<' || c == '>' || c == '!'

/-- The marked text cut at its first assignment sign, given the character before it. -/
def cutAssignMarked (previous : Char) : List Marked → Option (List Char × List Char)
  | [] => none
  | (c, mark) :: rest =>
    if c = '=' ∧ mark = some 0 ∧ !isComparisonStart previous ∧
        (rest.head?.map (·.1)) ≠ some '=' then
      some ([], rest.map (·.1))
    else (cutAssignMarked c rest).map fun (before, after) => (c :: before, after)

/-- The text before and after its first assignment sign: an equals sign outside literals and
brackets that is part of no comparison. -/
def cutAssign (text : List Char) : Option (List Char × List Char) :=
  cutAssignMarked ' ' (marked .start text)

/-- Head and arguments of a text such as `head[arguments]`: the first opening bracket must be
closed by the last character and not before it. -/
def splitCall (opening closing : Char) (text : List Char) : Option (List Char × List Char) :=
  match cut opening (trim text) with
  | none => none
  | some (head, tail) =>
    let body := marked .start (opening :: tail)
    let closesEarly := body.dropLast.any fun (c, mark) => isCloser c && mark == some 0
    if tail.getLast? = some closing ∧ !closesEarly then some (trim head, tail.dropLast) else none

/-- Head and arguments of `head[arguments]`. -/
def splitSubscript (text : List Char) : Option (List Char × List Char) := splitCall '[' ']' text

/-- Head and arguments of `head(arguments)`. -/
def splitApplication (text : List Char) : Option (List Char × List Char) := splitCall '(' ')' text

end Workflow.Text
