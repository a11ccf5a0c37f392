/-
This file reads the numerals of settings files.

An integer has a base of two, eight, ten or sixteen, may have gaps marked by
underscores after its first digit, and may name the type it is meant for. A real
number is written in base ten, may leave out the digits on one side of the point,
and may be infinite or undefined. Settings ask for natural numbers of a given width
and for single-precision numbers; other terms only have to be well-formed.
-/

import Workflow.Number.Single
import Workflow.Text.Hex

namespace Workflow.Term

open Number Text

/-- An integer as written. -/
structure IntegerLiteral where
  negative : Bool
  base : Nat
  magnitude : Nat
  suffix : List Char

/-- The base that the start of an unsigned numeral names, and what follows. -/
def scanBase : List Char → Nat × List Char
  | '0' :: 'x' :: rest => (16, rest)
  | '0' :: 'o' :: rest => (8, rest)
  | '0' :: 'b' :: rest => (2, rest)
  | digits => (10, digits)

/-- The value of digits in a base, gaps left out, if all of them are digits of the base. -/
def valueInBase (base : Nat) (digits : List Char) : Option Nat :=
  (digits.filter (· ≠ '_')).foldlM
    (fun total c =>
      (hexDigitValue c).bind fun digit =>
        if digit < base then some (total * base + digit) else none) 0

/-- Reads an integer with whatever follows its digits. -/
def scanInteger (literal : List Char) : Option IntegerLiteral :=
  let (negative, unsigned) := scanSign literal
  let (base, body) := scanBase unsigned
  let digits := body.takeWhile fun c => (hexDigitValue c).isSome || c == '_'
  if digits.isEmpty ∨ digits.head? = some '_' then none
  else (valueInBase base digits).map fun magnitude =>
    ⟨negative, base, magnitude, body.drop digits.length⟩

/-- The types an integer may be meant for: the name, whether there are negative numbers, and the
width in bits. -/
def integerTypes : List (String × Bool × Nat) :=
  [("u8", false, 8), ("u16", false, 16), ("u32", false, 32), ("u64", false, 64),
    ("i8", true, 8), ("i16", true, 16), ("i32", true, 32), ("i64", true, 64)]

/-- Whether an integer fits a type. -/
def IntegerLiteral.fits (literal : IntegerLiteral) (signed : Bool) (bits : Nat) : Bool :=
  if signed then
    if literal.negative then literal.magnitude ≤ twoTo (bits - 1)
    else literal.magnitude < twoTo (bits - 1)
  else literal.magnitude < twoTo bits && (!literal.negative || literal.magnitude == 0)

/-- Whether an integer names a type. Only integers in base two and ten can. -/
def IntegerLiteral.names (literal : IntegerLiteral) (type : String) : Bool :=
  literal.suffix == type.toList && (literal.base == 2 || literal.base == 10)

/-- Whether an integer is well-formed. It fits the type it names; without one it may be of any size
in base ten, and fits 64 bits in other bases. -/
def IntegerLiteral.isValid (literal : IntegerLiteral) : Bool :=
  if literal.suffix.isEmpty then literal.base == 10 || literal.fits literal.negative 64
  else
    integerTypes.any fun (name, signed, bits) => literal.names name && literal.fits signed bits

/-- The natural number of a width that a numeral stands for. -/
def natural? (bits : Nat) (literal : List Char) : Option Nat :=
  (scanInteger literal).bind fun integer =>
    let fitting := integer.suffix.isEmpty || integer.names ("u" ++ toString bits)
    if fitting && integer.fits false bits then some integer.magnitude else none

/-- A real number without its gaps. A gap may follow a digit or the mark of an exponent. -/
def dropGaps (allowed : Bool) : List Char → Option (List Char)
  | [] => some []
  | '_' :: rest => if allowed then dropGaps true rest else none
  | c :: rest =>
    let next := c.isDigit || c == 'e' || c == 'E' || (allowed && c != '.')
    (dropGaps next rest).map (c :: ·)

/-- Reads the exponent of a real number up to its end. -/
def scanPower : List Char → Option (Option (Bool × List Char))
  | [] => some none
  | c :: rest =>
    let (negative, digits) := scanSign rest
    if (c = 'e' ∨ c = 'E') ∧ !digits.isEmpty ∧ digits.all Char.isDigit then
      some (some (negative, digits))
    else none

/-- Reads a real number without gaps. One side of the point needs digits. -/
def scanReal (text : List Char) : Option Numeral :=
  let (negative, unsigned) := scanSign text
  let whole := unsigned.takeWhile Char.isDigit
  let (fraction, rest) : Option (List Char) × List Char :=
    match unsigned.drop whole.length with
    | '.' :: after => (some (after.takeWhile Char.isDigit), after.dropWhile Char.isDigit)
    | after => (none, after)
  if whole.isEmpty ∧ (fraction.getD []).isEmpty then none
  else (scanPower rest).map fun exponent => ⟨negative, whole, fraction, exponent⟩

/-- A character of a real number in digits. -/
def isRealPart (c : Char) : Bool :=
  c.isDigit || c == 'e' || c == 'E' || c == '.' || c == '+' || c == '-' || c == '_'

/-- Reads a real number in digits, and the type it names. -/
def scanDecimal (literal : List Char) : Option (Numeral × List Char) :=
  let body := literal.takeWhile isRealPart
  ((dropGaps false body).bind scanReal).map fun found => (found, literal.drop body.length)

/-- Reads an infinity or the undefined number, and the type it names. -/
def scanSpecial (literal : List Char) : Option (Single × List Char) :=
  match scanSign literal with
  | (negative, 'i' :: 'n' :: 'f' :: suffix) => some (.infinite negative, suffix)
  | (_, 'N' :: 'a' :: 'N' :: suffix) => some (.undefined, suffix)
  | _ => none

/-- A numeral as a single-precision number, with the type it names. -/
def scanSingle (literal : List Char) : Option (Single × List Char) :=
  (scanSpecial literal).or ((scanDecimal literal).map fun (found, suffix) =>
    (.ofRounded found.negative (found.round single), suffix))

/-- The single-precision number that a numeral stands for. -/
def single? (literal : List Char) : Option Single :=
  (scanSingle literal).bind fun (value, suffix) =>
    if suffix.isEmpty || suffix == "f32".toList then some value else none

/-- Whether a numeral is a real number. -/
def isReal (literal : List Char) : Bool :=
  (scanSingle literal).any fun (_, suffix) =>
    suffix.isEmpty || suffix == "f32".toList || suffix == "f64".toList

/-- Whether a numeral is well-formed. -/
def isNumeral (literal : List Char) : Bool :=
  (scanInteger literal).any IntegerLiteral.isValid || isReal literal

end Workflow.Term
