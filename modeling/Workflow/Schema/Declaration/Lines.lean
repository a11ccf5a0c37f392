/-
This file joins the lines of a schema source into declarations.

A declaration goes on over line ends while a bracket is open, and its parts are
joined by one space. Comments and trailing blanks are dropped, and so are
docstrings: lines that start with three quotes, up to the line that closes them.
-/

import Workflow.Text.Blank
import Workflow.Text.Cut
import Workflow.Text.Marked

namespace Workflow.Declaration

open Text

/-- How many docstring fences of either quote a line holds. -/
def fenceCount (line : List Char) : Nat := countFences '"' line + countFences '\'' line

/-- Whether a line starts with a docstring fence. -/
def opensDocstring (line : List Char) : Bool :=
  line.take 3 == ['"', '"', '"'] || line.take 3 == ['\'', '\'', '\'']

/-- Joins lines, given the declaration begun so far, its open brackets, and whether a docstring is
open. -/
def joinLines (pending : List Char) (depth : Int) (inDocstring : Bool) :
    List (List Char) → List (List Char)
  | [] => if pending.isEmpty then [] else [pending]
  | raw :: rest =>
    let odd := fenceCount (trim raw) % 2 == 1
    if inDocstring then joinLines pending depth (!odd) rest
    else if depth = 0 ∧ opensDocstring (trim raw) then joinLines pending depth odd rest
    else
      let line := trimEnd (stripComment raw)
      let joined := pending ++ if depth = 0 then line else ' ' :: trim line
      let total := depth + bracketDelta line
      if total ≤ 0 then joined :: joinLines [] 0 false rest else joinLines joined total false rest

/-- The declarations of a source, one a line, with their indents. -/
def logicalLines (source : List Char) : List (List Char) := joinLines [] 0 false (lines source)

end Workflow.Declaration
