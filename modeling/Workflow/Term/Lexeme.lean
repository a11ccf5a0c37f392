/-
This file cuts settings files into lexemes: marks, words, numerals and texts.

Blanks and comments stand between lexemes, and block comments nest. Each scanner
tells how many characters it takes, so what follows is always found by dropping
them. A text with anything else in it has no lexemes at all. An opening parenthesis
keeps the text behind it, because what the parentheses hold may be guessed from there.
-/

import Workflow.Term.Numeral
import Workflow.Text.Identifier

namespace Workflow.Term

open Text

/-- A piece of a settings file. -/
inductive Lexeme where
  | mark (c : Char)
  | opening (behind : List Char)
  /-- Parentheses with nothing between them. -/
  | unit
  | word (name : String)
  | numeral (literal : List Char)
  | text (value : String)
  | bytes

/-- The blanks of settings files. -/
def isSpace (c : Char) : Bool :=
  let code := c.toNat
  (9 ≤ code && code ≤ 13) || code == 0x20 || code == 0x85 || code == 0x200e || code == 0x200f ||
    code == 0x2028 || code == 0x2029

/-- The characters that are lexemes by themselves. -/
def isMark (c : Char) : Bool := ")[]\x7b\x7d,:#!".toList.contains c

/-! ### Comments -/

/-- How far a block comment reaches that so many openings are waiting to be closed in. -/
def blockLength : Nat → List Char → Option Nat
  | 0, _ => some 0
  | _ + 1, [] => none
  | depth + 1, '/' :: '*' :: rest => (blockLength (depth + 2) rest).map (· + 2)
  | depth + 1, '*' :: '/' :: rest => (blockLength depth rest).map (· + 2)
  | depth + 1, _ :: rest => (blockLength (depth + 1) rest).map (· + 1)

/-- How far a comment reaches after its first slash. -/
def commentLength : List Char → Option Nat
  | '/' :: rest => some (1 + (rest.takeWhile (· ≠ '\n')).length)
  | '*' :: rest => (blockLength 1 rest).map (· + 1)
  | _ => none

/-! ### Texts -/

/-- What stands between quotes. -/
inductive Quoting where
  | text
  | character
  | bytes
  deriving DecidableEq

/-- The value of two digits in base sixteen. -/
def byteOf : List Char → Option Nat
  | high :: low :: _ =>
    (hexDigitValue high).bind fun high => (hexDigitValue low).map fun low => high * 16 + low
  | _ => none

/-- Reads escapes of so many bytes. -/
def scanBytes : Nat → List Char → Option (List Nat)
  | 0, _ => some []
  | count + 1, '\\' :: 'x' :: rest =>
    (byteOf rest).bind fun byte => (scanBytes count (rest.drop 2)).map (byte :: ·)
  | _, _ => none

/-- How many bytes follow the first one in the encoding of a character. -/
def trailingBytes (first : Nat) : Nat :=
  if first < 0xe0 then 1 else if first < 0xf0 then 2 else 3

/-- The character whose encoding has the given bytes. -/
def characterOfBytes (first : Nat) (others : List Nat) : Option Char :=
  let lead := first % Nat.pow 2 (6 - others.length)
  let character := Char.ofNat (others.foldl (fun code byte => code * 64 + byte % 64) lead)
  if (String.utf8EncodeChar character).map UInt8.toNat = first :: others then some character
  else none

/-- Reads the digits of an escaped byte. In a text, the bytes of a longer character are escaped one
after the other. -/
def scanByteEscape (quoting : Quoting) (digits : List Char) : Option (Char × Nat) :=
  (byteOf digits).bind fun first =>
    if first < 128 ∨ quoting = .bytes then some (Char.ofNat first, 2)
    else if quoting = .text then
      let count := trailingBytes first
      ((scanBytes count (digits.drop 2)).bind (characterOfBytes first)).map fun character =>
        (character, 2 + 4 * count)
    else none

/-- Reads a code point in braces. -/
def scanCodePoint : List Char → Option (Char × Nat)
  | '\x7b' :: rest =>
    let digits := rest.takeWhile (· ≠ '\x7d')
    if digits.isEmpty ∨ 6 < digits.length ∨ digits.length = rest.length then none
    else
      (valueInBase 16 digits).bind fun code =>
        if code.isValidChar ∧ !digits.contains '_' then
          some (Char.ofNat code, digits.length + 2)
        else none
  | _ => none

/-- Reads an escape after its backslash. -/
def scanEscape (quoting : Quoting) : List Char → Option (Char × Nat)
  | [] => none
  | c :: rest =>
    if c = '"' ∨ c = '\'' ∨ c = '\\' then some (c, 1)
    else if c = 'n' then some ('\n', 1)
    else if c = 'r' then some ('\r', 1)
    else if c = 't' then some ('\t', 1)
    else if c = '0' then some ('\x00', 1)
    else
      let longer :=
        if c = 'x' then scanByteEscape quoting rest
        else if c = 'u' then scanCodePoint rest
        else none
      longer.map fun (character, length) => (character, length + 1)

/-- Reads a text after its opening quote. -/
def scanQuoted (quoting : Quoting) : List Char → Option (List Char × Nat)
  | [] => none
  | c :: rest =>
    if c = '"' then some ([], 1)
    else if c = '\\' then
      match scanEscape quoting rest with
      | none => none
      | some (character, length) =>
        (scanQuoted quoting (rest.drop length)).map fun (chars, count) =>
          (character :: chars, length + 1 + count)
    else (scanQuoted quoting rest).map fun (chars, count) => (c :: chars, 1 + count)
termination_by text => text.length
decreasing_by all_goals simp only [List.length_drop, List.length_cons]; omega

/-- How many characters come before a quote with so many number signs. -/
def rawLength (signs : Nat) : List Char → Option Nat
  | [] => none
  | c :: rest =>
    if c = '"' ∧ rest.take signs = List.replicate signs '#' then some 0
    else (rawLength signs rest).map (· + 1)

/-- Reads a text without escapes, from the number signs before its opening quote. -/
def scanRaw (text : List Char) : Option (List Char × Nat) :=
  let signs := (text.takeWhile (· == '#')).length
  match text.drop signs with
  | '"' :: rest =>
    (rawLength signs rest).map fun length => (rest.take length, 2 * signs + 2 + length)
  | _ => none

/-- How far a single character reaches after its opening quote. A byte is a character of ASCII, or
an escape other than one by code point. -/
def characterLength (quoting : Quoting) : List Char → Option Nat
  | '\\' :: rest =>
    (scanEscape quoting rest).bind fun (_, length) =>
      let named := quoting = .bytes ∧ rest.head? = some 'u'
      if !named ∧ (rest.drop length).head? = some '\'' then some (length + 2) else none
  | c :: '\'' :: _ => if quoting = .bytes ∧ 127 < c.toNat then none else some 2
  | _ => none

/-! ### Words -/

/-- A character of a word that is marked to hold dots and signs. -/
def isMarkedPart (c : Char) : Bool := continuesIdentifier c || c == '.' || c == '+' || c == '-'

/-- Reads a word, or what a letter before quotes announces. -/
def scanWord : List Char → Option (Lexeme × Nat)
  | 'b' :: '"' :: rest => (scanQuoted .bytes rest).map fun (_, length) => (.bytes, length + 2)
  | 'b' :: '\'' :: rest => (characterLength .bytes rest).map fun length => (.bytes, length + 2)
  | 'b' :: 'r' :: '"' :: rest =>
    (scanRaw ('"' :: rest)).map fun (_, length) => (.bytes, length + 2)
  | 'b' :: 'r' :: '#' :: rest =>
    (scanRaw ('#' :: rest)).map fun (_, length) => (.bytes, length + 2)
  | 'r' :: '"' :: rest =>
    (scanRaw ('"' :: rest)).map fun (chars, length) => (.text (String.ofList chars), length + 1)
  | 'r' :: '#' :: rest =>
    if rest.head? = some '"' ∨ rest.head? = some '#' then
      (scanRaw ('#' :: rest)).map fun (chars, length) => (.text (String.ofList chars), length + 1)
    else
      let name := rest.takeWhile isMarkedPart
      if name.isEmpty then none
      else some (.word (String.ofList ('r' :: '#' :: name)), name.length + 2)
  | [] => none
  | c :: rest =>
    if opensIdentifier c then
      let name := c :: rest.takeWhile continuesIdentifier
      some (.word (String.ofList name), name.length)
    else none

/-! ### Lexemes -/

/-- A character that may stand in a numeral. -/
def isNumeralPart (c : Char) : Bool :=
  c.isAlphanum || c == '_' || c == '.' || c == '+' || c == '-'

/-- What starts at a character: a lexeme, or nothing that counts, and how many further characters it
takes. -/
def scanLexeme (c : Char) (rest : List Char) : Option (Option Lexeme × Nat) :=
  if isSpace c then some (none, 0)
  else if c = '/' then (commentLength rest).map fun length => (none, length)
  else if c = '(' then
    if rest.head? = some ')' then some (some .unit, 1) else some (some (.opening rest), 0)
  else if isMark c then some (some (.mark c), 0)
  else if c = '"' then
    (scanQuoted .text rest).map fun (chars, length) => (some (.text (String.ofList chars)), length)
  else if c = '\'' then
    (characterLength .character rest).map fun length => (some .bytes, length)
  else if c.isDigit || c == '+' || c == '-' || c == '.' then
    let tail := rest.takeWhile isNumeralPart
    if isNumeral (c :: tail) then some (some (.numeral (c :: tail)), tail.length) else none
  else (scanWord (c :: rest)).map fun (lexeme, length) => (some lexeme, length - 1)

/-- The lexemes of a text. -/
def lexemes : List Char → Option (List Lexeme)
  | [] => some []
  | c :: rest =>
    match scanLexeme c rest with
    | none => none
    | some (found, length) =>
      (lexemes (rest.drop length)).map fun others => found.elim others (· :: others)
termination_by text => text.length
decreasing_by simp only [List.length_drop, List.length_cons]; omega

end Workflow.Term
