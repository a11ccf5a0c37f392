/-
This file recognises the shapes that declarations have: bindings, decorators,
headers of blocks, stored fields and accessors. A line that has none of them is
skipped by the readers that ask.
-/

import Workflow.Text.Blank
import Workflow.Text.Cut
import Workflow.Text.Word

namespace Workflow.Declaration

open Text

/-- The name at the start of a text, with the rest. -/
def scanName : List Char → Option (List Char × List Char)
  | [] => none
  | c :: rest =>
    if opensName c then some (c :: rest.takeWhile isWord, rest.dropWhile isWord) else none

/-- A character of a dotted name. -/
def isDottedWord (c : Char) : Bool := isWord c || c == '.'

/-- The dotted name at the start of a text, with the rest. -/
def scanDottedName : List Char → Option (List Char × List Char)
  | [] => none
  | c :: rest =>
    if opensName c then some (c :: rest.takeWhile isDottedWord, rest.dropWhile isDottedWord)
    else none

/-- What stands between the parentheses that make up a text; nothing for a text of blanks. -/
def parenthesized (text : List Char) : Option (List Char) :=
  match trim text with
  | [] => some []
  | '(' :: rest => if rest.getLast? = some ')' then some rest.dropLast else none
  | _ => none

/-- The text after a word and at least one blank. -/
def afterKeyword (word line : List Char) : Option (List Char) :=
  let rest := line.drop word.length
  if line.take word.length = word ∧ (rest.head?.any isBlank) then some (trimStart rest) else none

/-- The text without the colon at its end. -/
def beforeFinalColon (line : List Char) : Option (List Char) :=
  if line.getLast? = some ':' then some line.dropLast else none

/-- A binding of a name at the top of a source: `name = value` or `name : type = value`. -/
structure Binding where
  name : List Char
  declaredType : Option (List Char)
  value : List Char

/-- The binding on a trimmed line. The value starts after the first equals sign. -/
def Binding.ofLine (line : List Char) : Option Binding :=
  match scanName line with
  | none => none
  | some (name, rest) =>
    match trimStart rest with
    | '=' :: value => if value.isEmpty then none else some ⟨name, none, trim value⟩
    | ':' :: typed =>
      match cut '=' typed with
      | none => none
      | some (declaredType, value) =>
        if declaredType.isEmpty || value.isEmpty then none
        else some ⟨name, some (trim declaredType), trim value⟩
    | _ => none

/-- A decorator line `@name` or `@name(arguments)`. -/
structure Decorator where
  name : List Char
  arguments : List Char

def Decorator.ofLine : List Char → Option Decorator
  | '@' :: rest =>
    match scanDottedName rest with
    | some (name, call) => (parenthesized call).map fun arguments => ⟨name, arguments⟩
    | none => none
  | _ => none

/-- The header of a block: `class Name:` or `class Name(bases):`. -/
structure Header where
  name : List Char
  bases : List Char

def Header.ofLine (line : List Char) : Option Header := do
  let body ← beforeFinalColon line
  let (name, bases) ← scanName (← afterKeyword "class".toList body)
  let bases ← parenthesized bases
  some ⟨name, bases⟩

/-- A stored field `name: declaration`. -/
structure Stored where
  name : List Char
  declaration : List Char

def Stored.ofLine (line : List Char) : Option Stored :=
  match scanName line with
  | none => none
  | some (name, rest) =>
    match trimStart rest with
    | ':' :: declaration =>
      if (trimStart declaration).isEmpty then none else some ⟨name, trimStart declaration⟩
    | _ => none

/-- An accessor `def name(parameters) -> type:`. -/
structure Accessor where
  name : List Char
  type : List Char

/-- The text after the arrow that follows the last closing parenthesis with one. -/
def afterLastArrow : List Char → Option (List Char)
  | [] => none
  | c :: rest =>
    match afterLastArrow rest with
    | some type => some type
    | none =>
      if c = ')' then
        match trimStart rest with
        | '-' :: '>' :: type => if type.isEmpty then none else some type
        | _ => none
      else none

def Accessor.ofLine (line : List Char) : Option Accessor := do
  let body ← beforeFinalColon line
  let (name, rest) ← scanName (← afterKeyword "def".toList body)
  match trimStart rest with
  | '(' :: parameters => (afterLastArrow parameters).map fun type => ⟨name, trim type⟩
  | _ => none

end Workflow.Declaration
