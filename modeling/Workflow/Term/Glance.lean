/-
This file guesses what parentheses hold without reading it.

A glance goes over the text behind an opening parenthesis and looks for a comma that
another item follows. It counts brackets and steps over characters, texts and bytes
in quotes, but it knows neither numerals nor words, nor a single byte in quotes. Nor
does it look for a comment right behind a quote. So what it sees may differ from what
is there. It fails where a comment is wrong and where a text or the parentheses have
no end.
-/

import Workflow.Term.Lexeme

namespace Workflow.Term

/-- How far blanks and comments reach. -/
def blankLength : List Char → Option Nat
  | [] => some 0
  | c :: rest =>
    if isSpace c then (blankLength rest).map (· + 1)
    else if c = '/' then
      match commentLength rest with
      | none => none
      | some length => (blankLength (rest.drop length)).map (· + (length + 1))
    else some 0
termination_by text => text.length
decreasing_by all_goals simp only [List.length_drop, List.length_cons]; omega

/-! ### Quotes -/

/-- Whether a text has an end, from behind its opening quote. Behind a wrong escape, any quote will
do. -/
def hasEnd (quoting : Quoting) : List Char → Bool
  | [] => false
  | c :: rest =>
    if c = '"' then true
    else if c = '\\' then
      match scanEscape quoting rest with
      | none => rest.contains '"'
      | some (_, length) => hasEnd quoting (rest.drop length)
    else hasEnd quoting rest
termination_by text => text.length
decreasing_by all_goals simp only [List.length_drop, List.length_cons]; omega

/-- How far a text reaches from its opening quote on, told by what is behind the quote. One with a
wrong escape does not count, but all have to end. -/
def textLength (quoting : Quoting) (text : List Char) : Option Nat :=
  match scanQuoted quoting text with
  | some (_, length) => some (length + 1)
  | none => if hasEnd quoting text then some 0 else none

/-- How far a text without escapes reaches from the letter in front on, told by what is behind the
letter. -/
def rawTextLength (text : List Char) : Option Nat :=
  match scanRaw text with
  | some (_, length) => some (length + 1)
  | none => if (text.dropWhile (· == '#')).head? = some '"' then none else some 0

/-- How far a character in quotes reaches at the start of a text. -/
def quotedCharacterLength : List Char → Nat
  | '\'' :: rest => ((characterLength .character rest).map (· + 1)).getD 0
  | _ => 0

/-- How far a quoted text reaches at the start of a text. -/
def quotedTextLength : List Char → Option Nat
  | '"' :: rest => textLength .text rest
  | 'r' :: rest => rawTextLength rest
  | _ => some 0

/-- How far what starts behind a letter reaches together with it, if anything does. -/
def withLetter (length : Nat) : Nat := if length = 0 then 0 else length + 1

/-- How far quoted bytes reach at the start of a text. -/
def quotedBytesLength : List Char → Option Nat
  | 'b' :: '"' :: rest => (textLength .bytes rest).map withLetter
  | 'b' :: 'r' :: rest => (rawTextLength rest).map withLetter
  | _ => some 0

/-- How far a character, a text and bytes in quotes reach that start a text in this order. -/
def quotesLength (text : List Char) : Option Nat :=
  let first := quotedCharacterLength text
  (quotedTextLength (text.drop first)).bind fun second =>
    (quotedBytesLength (text.drop (first + second))).map fun third => first + second + third

/-- How far blanks, comments and quotes reach. -/
def skippedLength (text : List Char) : Option Nat :=
  (blankLength text).bind fun blanks => (quotesLength (text.drop blanks)).map (blanks + ·)

/-! ### Commas -/

/-- Whether an item follows a comma, and not the parenthesis that ends the items. -/
def itemFollows (text : List Char) : Option Bool :=
  (blankLength text).map fun length => (text.drop length).head? ≠ some ')'

/-- Whether a text has a comma with an item behind it before the bracket that ends the items, when
so many brackets are open around the start of the text. -/
def commaFollows (depth : Nat) (text : List Char) : Option Bool :=
  (skippedLength text).bind fun length =>
    match h : text.drop length with
    | [] => none
    | c :: rest =>
      if c = '(' ∨ c = '[' ∨ c = '\x7b' then commaFollows (depth + 1) rest
      else if c = ')' ∨ c = ']' ∨ c = '\x7d' then
        if depth = 0 then some false else commaFollows (depth - 1) rest
      else if c = ',' ∧ depth = 0 then itemFollows rest
      else commaFollows depth rest
termination_by text.length
decreasing_by
  all_goals
    have shorter := congrArg List.length h
    simp only [List.length_drop, List.length_cons] at shorter
    omega

/-- Whether parentheses seem to hold a tuple, told by the text behind the opening one. A word in
front is stepped over. -/
def seemsTuple (behind : List Char) : Option Bool :=
  (blankLength behind).bind fun length =>
    let text := behind.drop length
    match scanWord text with
    | some (.word _, length) => commaFollows 0 (text.drop length)
    | _ => commaFollows 0 text

end Workflow.Term
