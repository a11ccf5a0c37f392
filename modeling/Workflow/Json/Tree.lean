/-
This file writes JSON text.

What is written is a tree that fixes the order of members and the digits of every
number. Text is compact, or indented by two spaces a level with empty containers on
one line.
-/

import Workflow.Json.Basic
import Workflow.Text.Quoted

namespace Workflow

open Number Text

/-- JSON in the order and with the digits it is written with. -/
inductive Tree where
  | null
  | bool (value : Bool)
  | number (numeral : Numeral)
  | string (text : String)
  | array (items : List Tree)
  | object (members : List (String × Tree))

mutual

/-- The tree of a value. -/
def Json.tree : Json → Tree
  | null => .null
  | bool value => .bool value
  | int value => .number (.ofInt value)
  | real value => .number (Number.real value).numeral
  | string text => .string text
  | array items => .array (treesOf items)
  | object members => .object (memberTreesOf members)

/-- The trees of several values. -/
def Json.treesOf : List Json → List Tree
  | [] => []
  | item :: rest => item.tree :: treesOf rest

/-- The trees of an object's members. -/
def Json.memberTreesOf : List (String × Json) → List (String × Tree)
  | [] => []
  | (key, value) :: rest => (key, value.tree) :: memberTreesOf rest

end

namespace Tree

/-- A character of a string as it is written: quote, backslash and controls are escaped. -/
def escaped (c : Char) : List Char :=
  if c = '"' then ['\\', '"']
  else if c = '\\' then ['\\', '\\']
  else if c = '\n' then ['\\', 'n']
  else if c = '\r' then ['\\', 'r']
  else if c = '\t' then ['\\', 't']
  else if c = '\x08' then ['\\', 'b']
  else if c = '\x0c' then ['\\', 'f']
  else if c.toNat < 16 then ['\\', 'u', '0', '0', '0'] ++ hexDigits c.toNat
  else if c.toNat < 32 then ['\\', 'u', '0', '0'] ++ hexDigits c.toNat
  else [c]

/-- A string as it is written. -/
def stringChars (text : String) : List Char := '"' :: (text.toList.flatMap escaped ++ ['"'])

mutual

/-- The compact text of a tree. -/
def compactChars : Tree → List Char
  | null => "null".toList
  | bool value => (if value then "true" else "false").toList
  | number numeral => numeral.chars
  | string text => stringChars text
  | array items => '[' :: (compactItems items ++ [']'])
  | object members => '\x7b' :: (compactMembers members ++ ['\x7d'])

def compactItems : List Tree → List Char
  | [] => []
  | [only] => only.compactChars
  | item :: rest => item.compactChars ++ ',' :: compactItems rest

def compactMembers : List (String × Tree) → List Char
  | [] => []
  | [(key, value)] => stringChars key ++ ':' :: value.compactChars
  | (key, value) :: rest =>
    stringChars key ++ ':' :: (value.compactChars ++ ',' :: compactMembers rest)

end

/-- A line break and the indent of a level. -/
def newLine (level : Nat) : List Char := '\n' :: List.replicate (2 * level) ' '

mutual

/-- The indented text of a tree at a level. -/
def prettyChars (level : Nat) : Tree → List Char
  | null => "null".toList
  | bool value => (if value then "true" else "false").toList
  | number numeral => numeral.chars
  | string text => stringChars text
  | array [] => ['[', ']']
  | array (item :: rest) =>
    '[' :: (newLine (level + 1) ++ item.prettyChars (level + 1) ++
      prettyItems (level + 1) rest ++ newLine level ++ [']'])
  | object [] => ['\x7b', '\x7d']
  | object ((key, value) :: rest) =>
    '\x7b' :: (newLine (level + 1) ++ stringChars key ++ ':' :: ' ' ::
      value.prettyChars (level + 1) ++ prettyMembers (level + 1) rest ++ newLine level ++ ['\x7d'])

/-- The items after the first. -/
def prettyItems (level : Nat) : List Tree → List Char
  | [] => []
  | item :: rest => ',' :: (newLine level ++ item.prettyChars level ++ prettyItems level rest)

/-- The members after the first. -/
def prettyMembers (level : Nat) : List (String × Tree) → List Char
  | [] => []
  | (key, value) :: rest =>
    ',' :: (newLine level ++ stringChars key ++ ':' :: ' ' :: value.prettyChars level ++
      prettyMembers level rest)

end

/-- The compact text. -/
def compact (tree : Tree) : String := String.ofList tree.compactChars

/-- The indented text. -/
def pretty (tree : Tree) : String := String.ofList (tree.prettyChars 0)

end Tree

/-- The compact text of a value. -/
def Json.compact (value : Json) : String := value.tree.compact

end Workflow
