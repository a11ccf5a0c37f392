/-
This file reads string literals: one or more quoted literals in a row, with blanks
between them at most, stand for the concatenation of their contents.
-/

import Workflow.Text.Blank
import Workflow.Text.Marked

namespace Workflow.Text

/-- What a character after a backslash stands for. -/
def unescape (c : Char) : Char := if c = 'n' then '\n' else if c = 't' then '\t' else c

mutual

/-- Reads between literals; `found` tells whether one was read already. -/
def unquoteBetween (found : Bool) : List Char → Option (List Char)
  | [] => if found then some [] else none
  | c :: rest =>
    if isBlank c then unquoteBetween found rest
    else if isQuote c then unquoteWithin c rest
    else none

/-- Reads inside a literal up to its closing quote. -/
def unquoteWithin (quote : Char) : List Char → Option (List Char)
  | [] => none
  | '\\' :: [] => none
  | '\\' :: c :: rest => (unquoteWithin quote rest).map (unescape c :: ·)
  | c :: rest =>
    if c = quote then unquoteBetween true rest else (unquoteWithin quote rest).map (c :: ·)

end

/-- The contents of a text made of string literals alone. -/
def unquote (text : List Char) : Option (List Char) := unquoteBetween false text

end Workflow.Text
