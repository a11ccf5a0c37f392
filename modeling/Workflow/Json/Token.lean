/-
This file cuts JSON text into tokens.

A text that is not JSON still has tokens up to its first flaw, and the flaw itself
is the last of them: either a character that does not belong there, or the end of
the text. What comes after a flaw is never looked at. A string keeps escaped halves
of surrogate pairs as they are, because whether they pair up matters only to a
reader that wants the text.
-/

import Workflow.Json.Basic
import Workflow.Text.Hex
import Workflow.Text.Size

namespace Workflow

open Number Text

/-- What is wrong with a text: it is not JSON, it is JSON of the wrong shape, or it ends early. -/
inductive Problem where
  | malformed
  | misshapen
  | unfinished
  deriving DecidableEq

/-- A part of a written string: a character, or one half of a surrogate pair. -/
inductive Piece where
  | char (c : Char)
  | half (unit : Nat)
  deriving DecidableEq

def isHighHalf (unit : Nat) : Bool := 0xd800 ≤ unit && unit < 0xdc00

def isLowHalf (unit : Nat) : Bool := 0xdc00 ≤ unit && unit < 0xe000

/-- The character that two halves make. -/
def joinHalves (high low : Nat) : Char :=
  Char.ofNat ((high - 0xd800) * 0x400 + (low - 0xdc00) + 0x10000)

/-- What an escaped code unit contributes to a string. -/
def Piece.ofUnit (unit : Nat) : Piece :=
  if isHighHalf unit || isLowHalf unit then half unit else char (Char.ofNat unit)

/-- The text of pieces, unless a half stands alone. -/
def textOfPieces : List Piece → Option (List Char)
  | [] => some []
  | .char c :: rest => (textOfPieces rest).map (c :: ·)
  | .half high :: .half low :: rest =>
    if isHighHalf high && isLowHalf low then (textOfPieces rest).map (joinHalves high low :: ·)
    else none
  | .half _ :: _ => none

/-- Whether pieces that may go on hold a half that cannot find its other half any more. -/
def hasLoneHalf : List Piece → Bool
  | [] => false
  | .char _ :: rest => hasLoneHalf rest
  | .half high :: .half low :: rest =>
    !(isHighHalf high && isLowHalf low) || hasLoneHalf rest
  | [.half unit] => !isHighHalf unit
  | .half _ :: _ => true

/-- Where reading stops: the problem met, after the pieces of a string if it is met inside one. -/
structure Flaw where
  problem : Problem
  pieces : List Piece := []
  /-- The problem is met inside a numeral. -/
  inNumeral : Bool := false

/-- A flaw that nothing comes before in its string. -/
def Flaw.ofProblem (problem : Problem) : Flaw := { problem := problem }

/-- The first problem for a reader that needs the text of strings. -/
def Flaw.strict (flaw : Flaw) : Problem :=
  if hasLoneHalf flaw.pieces then .malformed else flaw.problem

/-- The problem for a reader that only looks for the end of a value: to it a numeral that stops
short is bad, even at the end of the text. -/
def Flaw.skimmed (flaw : Flaw) : Problem := if flaw.inNumeral then .malformed else flaw.problem

/-- A token of JSON text. -/
inductive Token where
  | beginArray | endArray | beginObject | endObject | comma | colon
  | null
  | bool (value : Bool)
  | number (numeral : Numeral)
  | string (pieces : List Piece)
  | brokenString (flaw : Flaw)
  | broken (flaw : Flaw)

/-- A problem that is a bad character if there is one, or else the end of the text. -/
def problemAt (text : List Char) : Problem := if text.isEmpty then .unfinished else .malformed

/-- Reads the given characters. -/
def scanWord : List Char → List Char → Except Problem (List Char)
  | [], text => .ok text
  | _ :: _, [] => .error .unfinished
  | expected :: word, c :: text => if c = expected then scanWord word text else .error .malformed

/-- Reads one or more digits. -/
def scanDigits (text : List Char) : Except Problem (List Char × List Char) :=
  let rest := text.dropWhile Char.isDigit
  if (text.takeWhile Char.isDigit).isEmpty then .error (problemAt rest)
  else .ok (text.takeWhile Char.isDigit, rest)

/-- Reads the digits before the point: a single zero, or digits that start with another one. -/
def scanWhole (text : List Char) : Except Problem (List Char × List Char) := do
  let (digits, rest) ← scanDigits text
  if digits.head? = some '0' ∧ 1 < digits.length then .error .malformed else .ok (digits, rest)

/-- Reads the part after the point, if there is a point. -/
def scanFraction : List Char → Except Problem (Option (List Char) × List Char)
  | '.' :: text => do
    let (digits, rest) ← scanDigits text
    .ok (some digits, rest)
  | text => .ok (none, text)

/-- Reads the exponent, if there is one. -/
def scanExponent : List Char → Except Problem (Option (Bool × List Char) × List Char)
  | [] => .ok (none, [])
  | c :: text =>
    if c = 'e' ∨ c = 'E' then do
      let (digits, rest) ← scanDigits (scanSign text).2
      .ok (some ((scanSign text).1, digits), rest)
    else .ok (none, c :: text)

/-- Reads a numeral. -/
def scanNumeral (text : List Char) : Except Problem (Numeral × List Char) := do
  let (whole, afterWhole) ← scanWhole (scanMinus text).2
  let (fraction, afterFraction) ← scanFraction afterWhole
  let (exponent, rest) ← scanExponent afterFraction
  .ok (⟨(scanMinus text).1, whole, fraction, exponent⟩, rest)

/-- The value of four digits in base sixteen. -/
def hexUnit (a b c d : Char) : Option Nat := do
  let a ← hexDigitValue a
  let b ← hexDigitValue b
  let c ← hexDigitValue c
  let d ← hexDigitValue d
  some (((a * 16 + b) * 16 + c) * 16 + d)

/-- The character that a short escape stands for. -/
def shortEscape (c : Char) : Option Char :=
  if c = '"' ∨ c = '\\' ∨ c = '/' then some c
  else if c = 'b' then some '\x08'
  else if c = 'f' then some '\x0c'
  else if c = 'n' then some '\n'
  else if c = 'r' then some '\r'
  else if c = 't' then some '\t'
  else none

/-- A string or a flaw with one more piece in front. -/
def withPiece (piece : Piece) (scanned : Except Flaw (List Piece × List Char)) :
    Except Flaw (List Piece × List Char) :=
  match scanned with
  | .ok (pieces, rest) => .ok (piece :: pieces, rest)
  | .error flaw => .error { flaw with pieces := piece :: flaw.pieces }

/-- Reads a string after its opening quote. An escaped code unit takes the next four bytes; a text
with fewer left ends early. -/
def scanString : List Char → Except Flaw (List Piece × List Char)
  | [] => .error (.ofProblem .unfinished)
  | '"' :: rest => .ok ([], rest)
  | '\\' :: [] => .error (.ofProblem .unfinished)
  | '\\' :: 'u' :: a :: b :: c :: d :: rest =>
    match hexUnit a b c d with
    | some unit => withPiece (.ofUnit unit) (scanString rest)
    | none => .error (.ofProblem .malformed)
  | '\\' :: 'u' :: rest =>
    .error (.ofProblem (if byteSize rest < 4 then .unfinished else .malformed))
  | '\\' :: c :: rest =>
    match shortEscape c with
    | some character => withPiece (.char character) (scanString rest)
    | none => .error (.ofProblem .malformed)
  | c :: rest =>
    if c.toNat < 32 then .error (.ofProblem .malformed) else withPiece (.char c) (scanString rest)

theorem length_scanWord_le {word text rest : List Char} (scanned : scanWord word text = .ok rest) :
    rest.length ≤ text.length := by
  induction word generalizing text with
  | nil =>
    rw [scanWord, Except.ok.injEq] at scanned
    exact Nat.le_of_eq (by rw [scanned])
  | cons expected word inductionHypothesis =>
    cases text with
    | nil => simp [scanWord] at scanned
    | cons c text =>
      rw [scanWord] at scanned
      split at scanned
      · have := inductionHypothesis scanned
        rw [List.length_cons]
        omega
      · simp at scanned

theorem ok_of_withPiece {piece : Piece} {scanned : Except Flaw (List Piece × List Char)}
    {pieces : List Piece} {rest : List Char}
    (found : withPiece piece scanned = .ok (pieces, rest)) :
    ∃ inner, scanned = .ok (inner, rest) := by
  match scanned, found with
  | .ok (inner, _), rfl => exact ⟨inner, rfl⟩

theorem length_scanString_le {text rest : List Char} {pieces : List Piece}
    (scanned : scanString text = .ok (pieces, rest)) : rest.length ≤ text.length := by
  fun_induction scanString text generalizing pieces with
  | case1 | case3 | case5 | case6 | case8 | case9 => simp at scanned
  | case2 => simp_all
  | case4 a b c d tail unit value inductionHypothesis =>
    obtain ⟨inner, innerScanned⟩ := ok_of_withPiece scanned
    have := inductionHypothesis innerScanned
    simp only [List.length_cons]
    omega
  | case7 c tail _ _ character value inductionHypothesis =>
    obtain ⟨inner, innerScanned⟩ := ok_of_withPiece scanned
    have := inductionHypothesis innerScanned
    simp only [List.length_cons]
    omega
  | case10 c tail _ _ _ _ _ _ inductionHypothesis =>
    obtain ⟨inner, innerScanned⟩ := ok_of_withPiece scanned
    have := inductionHypothesis innerScanned
    simp only [List.length_cons]
    omega

theorem length_scanDigits_lt {text digits rest : List Char}
    (scanned : scanDigits text = .ok (digits, rest)) : rest.length < text.length := by
  simp only [scanDigits] at scanned
  split at scanned
  · simp at scanned
  · next some_digit =>
    simp only [Except.ok.injEq, Prod.mk.injEq] at scanned
    have whole := congrArg List.length
      (List.takeWhile_append_dropWhile (p := Char.isDigit) (l := text))
    rw [List.length_append, scanned.1, scanned.2] at whole
    rw [scanned.1] at some_digit
    have := List.length_pos_iff.2 (by simpa using some_digit)
    omega

theorem length_scanWhole_lt {text digits rest : List Char}
    (scanned : scanWhole text = .ok (digits, rest)) : rest.length < text.length := by
  rw [scanWhole] at scanned
  match found : scanDigits text with
  | .error problem => simp [found, bind, Except.bind] at scanned
  | .ok (inner, tail) =>
    simp only [found, bind, Except.bind] at scanned
    split at scanned
    · simp at scanned
    · simp only [Except.ok.injEq, Prod.mk.injEq] at scanned
      rw [← scanned.2]
      exact length_scanDigits_lt found

theorem length_scanFraction_le {text rest : List Char} {fraction : Option (List Char)}
    (scanned : scanFraction text = .ok (fraction, rest)) : rest.length ≤ text.length := by
  rw [scanFraction.eq_def] at scanned
  split at scanned
  · next tail =>
    match found : scanDigits tail with
    | .error problem => simp [found, bind, Except.bind] at scanned
    | .ok (inner, after) =>
      simp only [found, bind, Except.bind, Except.ok.injEq, Prod.mk.injEq] at scanned
      have := length_scanDigits_lt found
      rw [← scanned.2, List.length_cons]
      omega
  · simp only [Except.ok.injEq, Prod.mk.injEq] at scanned
    exact Nat.le_of_eq (by rw [scanned.2])

theorem length_scanMinus_le (text : List Char) : (scanMinus text).2.length ≤ text.length := by
  rw [scanMinus.eq_def]
  split <;> simp only [List.length_cons] <;> omega

theorem length_scanSign_le (text : List Char) : (scanSign text).2.length ≤ text.length := by
  rw [scanSign.eq_def]
  split <;> simp only [List.length_cons] <;> omega

theorem length_scanExponent_le {text rest : List Char} {exponent : Option (Bool × List Char)}
    (scanned : scanExponent text = .ok (exponent, rest)) : rest.length ≤ text.length := by
  cases text with
  | nil => simp_all [scanExponent]
  | cons c text =>
    rw [scanExponent] at scanned
    split at scanned
    · match found : scanDigits (scanSign text).2 with
      | .error problem => simp [found, bind, Except.bind] at scanned
      | .ok (inner, after) =>
        simp only [found, bind, Except.bind, Except.ok.injEq, Prod.mk.injEq] at scanned
        have := length_scanDigits_lt found
        have := length_scanSign_le text
        rw [← scanned.2, List.length_cons]
        omega
    · simp only [Except.ok.injEq, Prod.mk.injEq] at scanned
      exact Nat.le_of_eq (by rw [scanned.2])

theorem length_scanNumeral_lt {text rest : List Char} {numeral : Numeral}
    (scanned : scanNumeral text = .ok (numeral, rest)) : rest.length < text.length := by
  rw [scanNumeral] at scanned
  match wholeScanned : scanWhole (scanMinus text).2 with
  | .error problem => simp [wholeScanned, bind, Except.bind] at scanned
  | .ok (whole, afterWhole) =>
    match fractionScanned : scanFraction afterWhole with
    | .error problem => simp [wholeScanned, fractionScanned, bind, Except.bind] at scanned
    | .ok (fraction, afterFraction) =>
      match exponentScanned : scanExponent afterFraction with
      | .error problem =>
        simp [wholeScanned, fractionScanned, exponentScanned, bind, Except.bind] at scanned
      | .ok (exponent, after) =>
        simp only [wholeScanned, fractionScanned, exponentScanned, bind, Except.bind,
          Except.ok.injEq, Prod.mk.injEq] at scanned
        have := length_scanMinus_le text
        have := length_scanWhole_lt wholeScanned
        have := length_scanFraction_le fractionScanned
        have := length_scanExponent_le exponentScanned
        rw [← scanned.2]
        omega

/-- The blanks between tokens. -/
def isJsonBlank (c : Char) : Bool := c == ' ' || c == '\n' || c == '\t' || c == '\r'

/-- The token a single character makes. -/
def punctuation (c : Char) : Option Token :=
  if c = '[' then some .beginArray
  else if c = ']' then some .endArray
  else if c = '\x7b' then some .beginObject
  else if c = '\x7d' then some .endObject
  else if c = ',' then some .comma
  else if c = ':' then some .colon
  else none

/-- The word that a character opens, without that character, and its token. -/
def wordAfter (c : Char) : Option (List Char × Token) :=
  if c = 'n' then some ("ull".toList, .null)
  else if c = 't' then some ("rue".toList, .bool true)
  else if c = 'f' then some ("alse".toList, .bool false)
  else none

/-- The tokens of a text, up to its first flaw. -/
def tokens : List Char → List Token
  | [] => []
  | c :: rest =>
    if isJsonBlank c then tokens rest
    else if c = '"' then
      match found : scanString rest with
      | .ok (pieces, after) =>
        have := length_scanString_le found
        .string pieces :: tokens after
      | .error flaw => [.brokenString flaw]
    else if c = '-' ∨ c.isDigit then
      match found : scanNumeral (c :: rest) with
      | .ok (numeral, after) =>
        have := length_scanNumeral_lt found
        .number numeral :: tokens after
      | .error problem => [.broken { problem := problem, inNumeral := true }]
    else
      match punctuation c, wordAfter c with
      | some token, _ => token :: tokens rest
      | none, some (word, token) =>
        match found : scanWord word rest with
        | .ok after =>
          have := length_scanWord_le found
          token :: tokens after
        | .error problem => [.broken (.ofProblem problem)]
      | none, none => [.broken (.ofProblem .malformed)]
termination_by text => text.length
decreasing_by all_goals simp only [List.length_cons] at *; omega

end Workflow
