/-
This file holds numerals: numbers as they are written, digit by digit.

A numeral is rounded to a format once, from all its digits; one too large for the
format has no value there. A floating-point number is written with the fewest digits
that read back, with a fraction even if it is whole, and with an exponent once it is
very small or very large.
-/

import Workflow.Number.Shortest

namespace Workflow

/-- A number: a 64-bit integer or a floating-point number. -/
inductive Number where
  | int (value : Int)
  | real (value : Number.Binary)

namespace Number

/-- A written number. The digits of each part are decimal; the exponent has a sign of its own. -/
structure Numeral where
  negative : Bool
  whole : List Char
  fraction : Option (List Char)
  exponent : Option (Bool × List Char)

/-- A natural number with one more decimal digit. -/
def appendDigit (total : Nat) (digit : Char) : Nat := 10 * total + (digit.toNat - '0'.toNat)

/-- The value of decimal digits. -/
def digitsValue (digits : List Char) : Nat := digits.foldl appendDigit 0

/-- The decimal digits of a natural number. -/
def decimalDigits (n : Nat) : List Char := Nat.toDigits 10 n

/-- Reads a minus sign, if there is one. -/
def scanMinus : List Char → Bool × List Char
  | '-' :: text => (true, text)
  | text => (false, text)

/-- Reads the sign of an exponent, if there is one. -/
def scanSign : List Char → Bool × List Char
  | '-' :: text => (true, text)
  | '+' :: text => (false, text)
  | text => (false, text)

namespace Numeral

/-- The numeral of an integer. -/
def ofInt (value : Int) : Numeral := ⟨value < 0, decimalDigits value.natAbs, none, none⟩

/-- The characters of a numeral. -/
def chars (numeral : Numeral) : List Char :=
  (if numeral.negative then ['-'] else []) ++ numeral.whole ++
    (numeral.fraction.elim [] ('.' :: ·)) ++
    (numeral.exponent.elim [] fun (negative, digits) =>
      'e' :: (if negative then '-' else '+') :: digits)

/-- The power of ten that the exponent stands for. -/
def shift (numeral : Numeral) : Int :=
  numeral.exponent.elim 0 fun (negative, digits) =>
    if negative then -(digitsValue digits : Int) else digitsValue digits

/-- The digits before and after the point as one natural number, and the power of ten that scales
it. -/
def scaled (numeral : Numeral) : Nat × Int :=
  let fraction := numeral.fraction.getD []
  (digitsValue (numeral.whole ++ fraction), numeral.shift - fraction.length)

/-- The number of a format that a numeral stands for, or nothing if it is out of range. -/
def round (format : Format) (numeral : Numeral) : Option Binary :=
  let (digits, exponent) := numeral.scaled
  format.ofDecimal numeral.negative digits exponent

end Numeral

/-- The exponents, of the first digit, for which a number is written without an exponent. -/
structure Layout where
  least : Int
  greatest : Int

/-- Values are written in full from 1e-5 to below 1e16. -/
def doubleLayout : Layout := ⟨-5, 15⟩

/-- Positions and sizes are written in full from 1e-6 to below 1e13. -/
def singleLayout : Layout := ⟨-6, 12⟩

/-- The numeral of a decimal. -/
def Layout.numeral (layout : Layout) (negative : Bool) (decimal : Decimal) : Numeral :=
  let digits := decimalDigits decimal.digits
  let lead := decimal.exponent + (digits.length - 1)
  if layout.least ≤ lead ∧ lead ≤ layout.greatest then
    if 0 ≤ decimal.exponent then
      ⟨negative, digits ++ List.replicate decimal.exponent.toNat '0', some ['0'], none⟩
    else if 0 ≤ lead then
      ⟨negative, digits.take (lead.toNat + 1), some (digits.drop (lead.toNat + 1)), none⟩
    else ⟨negative, ['0'], some (List.replicate (-lead - 1).toNat '0' ++ digits), none⟩
  else
    ⟨negative, digits.take 1, if digits.length = 1 then none else some (digits.drop 1),
      some (lead < 0, decimalDigits lead.natAbs)⟩

/-- The numeral of a finite number of a format. -/
def Layout.numeralOf (layout : Layout) (format : Format) (value : Binary) : Numeral :=
  if value.mantissa = 0 then ⟨value.negative, ['0'], some ['0'], none⟩
  else layout.numeral value.negative (format.shortest value)

/-- The numeral of a number. -/
def numeral : Number → Numeral
  | .int value => .ofInt value
  | .real value => doubleLayout.numeralOf double value

end Number

end Workflow
