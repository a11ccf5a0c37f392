/-
This file reads default values from the expressions of a schema source.

Literals, empty collections, numbers and two-argument messages have a value of
their own, a name may stand for a constant of the source, and every other
expression is kept word for word.
-/

import Workflow.Schema.Model
import Workflow.Text.Literal

namespace Workflow.Declaration

open Text Number

/-- Named constants of a source. -/
abbrev Constants := OrderedMap String Default

/-- The exponent at the end of a number: nothing, or a mark, a sign and digits. -/
def readExponent : List Char → Option (Option (Bool × List Char))
  | [] => some none
  | c :: rest =>
    let (negative, digits) := scanSign rest
    if (c = 'e' ∨ c = 'E') ∧ !digits.isEmpty ∧ digits.all Char.isDigit then
      some (some (negative, digits))
    else none

/-- Reads a numeral that makes up a text. Digits may be missing on one side of the point. -/
def readNumeral (text : List Char) : Option Numeral := do
  let (negative, unsigned) := scanSign text
  let whole := unsigned.takeWhile Char.isDigit
  match unsigned.dropWhile Char.isDigit with
  | '.' :: rest =>
    let fraction := rest.takeWhile Char.isDigit
    let exponent ← readExponent (rest.dropWhile Char.isDigit)
    if whole.isEmpty && fraction.isEmpty then none
    else some ⟨negative, whole, some fraction, exponent⟩
  | rest =>
    let exponent ← readExponent rest
    if whole.isEmpty then none else some ⟨negative, whole, none, exponent⟩

/-- The value of a numeral: an integer if it is written as one and fits, or else a floating-point
number; one that is too large has no value and counts as null. -/
def numeralStart (numeral : Numeral) : Json :=
  let magnitude := digitsValue numeral.whole
  let value : Int := if numeral.negative then -magnitude else magnitude
  let bound : Int := twoTo 63
  if numeral.fraction.isNone ∧ numeral.exponent.isNone ∧ -bound ≤ value ∧ value < bound then
    .int value
  else
    match numeral.round double with
    | some rounded => .real rounded
    | none => .null

/-- The heads of message constructors. -/
def messageConstructors : List (List Char) := ["Message".toList, "Message.of".toList]

/-- The words that stand for a value or, at the end, for no default. -/
def wordStart (word : String) : Option (Option Json) :=
  match word with
  | "" | "..." => some none
  | "None" | "null" => some (some .null)
  | "True" | "true" => some (some (.bool true))
  | "False" | "false" => some (some (.bool false))
  | "[]" | "list()" => some (some (.array []))
  | "\x7b\x7d" | "dict()" => some (some (.object []))
  | _ => none

/-- Kind and value of a two-argument message constructor, as text. -/
def messageArguments (text : List Char) : Option (List Char × List Char) :=
  match splitApplication text with
  | none => none
  | some (head, arguments) =>
    if messageConstructors.contains head then
      match splitTopLevel ',' arguments with
      | [kind, value] => some (kind, value)
      | _ => none
    else none

theorem length_lt_of_messageArguments {text kind value : List Char}
    (found : messageArguments text = some (kind, value)) : value.length < text.length := by
  rw [messageArguments] at found
  split at found
  · simp at found
  · next head arguments call =>
    split at found
    · split at found
      · next first second pieces =>
        simp only [Option.some.injEq, Prod.mk.injEq] at found
        have member : value ∈ splitTopLevel ',' arguments := by
          rw [pieces, ← found.2]
          exact List.mem_cons_of_mem _ List.mem_cons_self
        exact Nat.lt_of_le_of_lt (length_le_of_mem_splitTopLevel member)
          (length_lt_of_splitCall call)
      · simp at found
    · simp at found

/-- Reads a default; there is none for an empty expression or an ellipsis. -/
def readDefault (constants : Constants) (expression : List Char) : Option Default :=
  let text := trim expression
  match wordStart (String.ofList text) with
  | some word => word.map .literal
  | none =>
    match unquote text with
    | some content => some (.literal (.string (String.ofList content)))
    | none =>
      match readNumeral text with
      | some numeral => some (.literal (numeralStart numeral))
      | none =>
        match found : messageArguments text with
        | some (kind, value) =>
          have : value.length < expression.length :=
            Nat.lt_of_lt_of_le (length_lt_of_messageArguments found) (length_trim_le expression)
          let payload := (readDefault constants value).elim .null Default.start
          some (.message (String.ofList ((unquote kind).getD kind)) payload)
        | none =>
          match constants.get? (String.ofList text) with
          | some constant => some constant
          | none => some (.verbatim (String.ofList text))
termination_by expression.length

/-- The text of a string literal or of a constant that holds one. -/
def readText (constants : Constants) (expression : List Char) : Option String :=
  match unquote expression with
  | some content => some (String.ofList content)
  | none => (constants.get? (String.ofList (trim expression))).bind Default.text?

end Workflow.Declaration
