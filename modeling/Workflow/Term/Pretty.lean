/-
This file writes terms.

Lists, maps and records have a line for every item, indented by four spaces a level
and ended by a comma; tuples stay on one line, and so do empty collections.
-/

import Workflow.Term.Basic
import Workflow.Text.Quoted

namespace Workflow.Term

open Text

/-- A character of a text as it is written: as in messages, but the single quote is escaped too. -/
def escaped (c : Char) : List Char := if c = '\'' then ['\\', '\''] else quotedForm c

/-- A text as it is written. -/
def textChars (text : String) : List Char := '"' :: (text.toList.flatMap escaped ++ ['"'])

/-- A line break and the indent of a level. -/
def newLine (level : Nat) : List Char := '\n' :: List.replicate (4 * level) ' '

/-- The name in front of parentheses. -/
def nameChars (name : Option String) : List Char := name.elim [] String.toList

mutual

/-- The text of a term at a level. Characters and bytes have none of their own and are written as an
empty one. -/
def prettyChars (level : Nat) : Term → List Char
  | word name => name.toList
  | numeral literal => literal
  | text value => textChars value
  | bytes => "b\"\"".toList
  | unit => ['(', ')']
  | present _ value => presenceMark.toList ++ '(' :: (value.prettyChars level ++ [')'])
  | list [] => ['[', ']']
  | list (item :: rest) =>
    '[' :: (prettyItems (level + 1) (item :: rest) ++ newLine level ++ [']'])
  | map [] => ['\x7b', '\x7d']
  | map (entry :: rest) =>
    '\x7b' :: (prettyEntries (level + 1) (entry :: rest) ++ newLine level ++ ['\x7d'])
  | tuple name items => nameChars name ++ '(' :: (prettyParts level items ++ [')'])
  | record name [] => nameChars name ++ ['(', ')']
  | record name (member :: rest) =>
    nameChars name ++ '(' :: (prettyMembers (level + 1) (member :: rest) ++ newLine level ++ [')'])

/-- Items, each on its line. -/
def prettyItems (level : Nat) : List Term → List Char
  | [] => []
  | item :: rest => newLine level ++ item.prettyChars level ++ ',' :: prettyItems level rest

/-- Items on one line. -/
def prettyParts (level : Nat) : List Term → List Char
  | [] => []
  | [only] => only.prettyChars level
  | item :: rest => item.prettyChars level ++ ',' :: ' ' :: prettyParts level rest

/-- Members, each on its line. -/
def prettyMembers (level : Nat) : List (String × Term) → List Char
  | [] => []
  | (key, value) :: rest =>
    newLine level ++ key.toList ++ ':' :: ' ' ::
      (value.prettyChars level ++ ',' :: prettyMembers level rest)

/-- Entries of a map, each on its line. -/
def prettyEntries (level : Nat) : List (Term × Term) → List Char
  | [] => []
  | (key, value) :: rest =>
    newLine level ++ key.prettyChars level ++ ':' :: ' ' ::
      (value.prettyChars level ++ ',' :: prettyEntries level rest)

end

/-- The text of a term. -/
def pretty (term : Term) : String := String.ofList (term.prettyChars 0)

end Workflow.Term
