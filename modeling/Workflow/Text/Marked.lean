/-
This file tells the characters of a text that stand inside string literals from
those outside, and gives each of the latter its bracket depth.

A literal opens with a single or double quote and runs to the next such quote; a
backslash inside it takes the next character along. Brackets count only outside
literals: an opening bracket stands at the depth before it, a closing one at the
depth after it. The depth is an integer because a text may close more brackets
than it opens. Splitting, comments and assignments are all read off this marking.
-/

namespace Workflow.Text

/-- Where a scan of a text stands. -/
inductive Scan where
  | outside (depth : Int)
  | inside (quote : Char) (escaped : Bool) (depth : Int)
  deriving DecidableEq

/-- A scan that has read nothing yet. -/
def Scan.start : Scan := .outside 0

/-- The bracket depth a scan has reached. -/
def Scan.depth : Scan → Int
  | .outside depth => depth
  | .inside _ _ depth => depth

def isQuote (c : Char) : Bool := c == '"' || c == '\''

def isOpener (c : Char) : Bool := c == '(' || c == '[' || c == '\x7b'

def isCloser (c : Char) : Bool := c == ')' || c == ']' || c == '\x7d'

/-- The scan after one more character. -/
def Scan.step (scan : Scan) (c : Char) : Scan :=
  match scan with
  | .inside quote escaped depth =>
    if escaped then .inside quote false depth
    else if c = '\\' then .inside quote true depth
    else if c = quote then .outside depth
    else scan
  | .outside depth =>
    if isQuote c then .inside c false depth
    else if isOpener c then .outside (depth + 1)
    else if isCloser c then .outside (depth - 1)
    else scan

/-- The depth at which the next character stands, or nothing when it belongs to a literal. -/
def Scan.mark (scan : Scan) (c : Char) : Option Int :=
  match scan with
  | .inside .. => none
  | .outside depth =>
    if isQuote c then none else if isCloser c then some (depth - 1) else some depth

/-- A character with the depth it stands at, if it is outside literals. -/
abbrev Marked := Char × Option Int

/-- The text with every character marked. -/
def marked (scan : Scan) : List Char → List Marked
  | [] => []
  | c :: rest => (c, scan.mark c) :: marked (scan.step c) rest

/-- The scan after a whole text. -/
def Scan.run (scan : Scan) (text : List Char) : Scan := text.foldl Scan.step scan

/-- By how much a text changes the bracket depth. -/
def bracketDelta (text : List Char) : Int := (Scan.start.run text).depth

/-- The text up to the first number sign outside literals. -/
def stripComment (text : List Char) : List Char :=
  ((marked .start text).takeWhile fun (c, mark) => !(c == '#' && mark.isSome)).map (·.1)

end Workflow.Text
