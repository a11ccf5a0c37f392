/-
This file collects the bindings at the top of a source: constants, whose names are
all capitals, and aliases of types. An alias may use the aliases before it.
-/

import Workflow.Schema.Declaration.Expression
import Workflow.Schema.Declaration.Shape

namespace Workflow.Declaration

open Text

/-- Aliases of types with their expansions. -/
abbrev Aliases := OrderedMap String String

/-- The text with every name that is an alias replaced once. -/
def expandOnce (aliases : Aliases) : List Char → List Char
  | [] => []
  | c :: rest =>
    if opensName c then
      let word := c :: rest.takeWhile isDottedWord
      have : (rest.dropWhile isDottedWord).length < (c :: rest).length :=
        Nat.lt_succ_of_le (List.dropWhile_sublist isDottedWord).length_le
      (aliases.get? (String.ofList word)).elim word String.toList ++
        expandOnce aliases (rest.dropWhile isDottedWord)
    else c :: expandOnce aliases rest
termination_by text => text.length
decreasing_by all_goals simp only [List.length_cons] at *; omega

/-- How often names are replaced, since an expansion may hold aliases again. -/
def expansionPasses : Nat := 4

/-- The text after so many rounds of replacing. -/
def expandTimes (aliases : Aliases) : Nat → List Char → List Char
  | 0, text => text
  | passes + 1, text => expandTimes aliases passes (expandOnce aliases text)

/-- The trimmed text with its aliases expanded. -/
def expand (aliases : Aliases) (text : List Char) : List Char :=
  expandTimes aliases expansionPasses (trim text)

/-- Whether a name is one of a constant: capitals, digits and underscores after a capital. -/
def isConstantName : List Char → Bool
  | [] => false
  | c :: rest => c.isUpper && rest.all fun d => d.isUpper || d.isDigit || d == '_'

/-- Whether the value of a binding reads like a type. -/
def looksLikeType (value : List Char) : Bool :=
  value.head?.any Char.isAlpha && !value.contains '(' && !isConstantName value

/-- Constants and aliases gathered so far. -/
structure Bindings where
  constants : Constants := {}
  aliases : Aliases := {}

/-- The bindings with one more declaration read. -/
def Bindings.add (bindings : Bindings) (binding : Binding) : Bindings :=
  if isConstantName binding.name then
    match readDefault bindings.constants binding.value with
    | some value =>
      { bindings with constants := bindings.constants.insert (String.ofList binding.name) value }
    | none => bindings
  else if binding.name.head?.any Char.isUpper ∧
      (binding.declaredType.all (· = "TypeAlias".toList)) ∧ looksLikeType binding.value then
    let expansion := String.ofList (expand bindings.aliases binding.value)
    { bindings with aliases := bindings.aliases.insert (String.ofList binding.name) expansion }
  else bindings

/-- The bindings of the declarations that are not indented. -/
def Bindings.ofLines (lines : List (List Char)) : Bindings :=
  (lines.filter fun line => indentOf line == 0).foldl
    (fun bindings line => (Binding.ofLine (trim line)).elim bindings bindings.add) {}

end Workflow.Declaration
