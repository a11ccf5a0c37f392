/-
This file reads numerals as the numbers of values.

A numeral without fraction and exponent is an integer if it fits 64 bits. Every
other one, minus zero included, is a double-precision number that is found in
steps: the leading digits that fit 64 bits are rounded to a double, and a power of
ten, which is a double too, multiplies or divides it. Every step rounds, so for many
digits or a large power the result may stand beside the nearest number.
-/

import Workflow.Number.Numeral

namespace Workflow.Number

/-- The product of two magnitudes, rounded, unless it is out of range. -/
def product (a b : Binary) : Option Binary :=
  double.nearestScaled false (a.mantissa * b.mantissa) (a.exponent + b.exponent)

/-- The quotient of two magnitudes, rounded. -/
def quotient (a b : Binary) : Option Binary :=
  double.nearest false (a.mantissa * twoTo (a.exponent - b.exponent).toNat)
    (b.mantissa * twoTo (b.exponent - a.exponent).toNat)

/-- The greatest power of ten that is a double. -/
def greatestPower : Nat := 308

/-- A power of ten as a double. -/
def powerOfTen (n : Nat) : Option Binary := double.nearest false (tenTo n) 1

/-- A magnitude times ten to the exponent, rounded at every step, unless it is out of range. Several
divisions make up for a negative exponent beyond the greatest power. -/
def scaleByTen (magnitude : Binary) (exponent : Int) : Option Binary :=
  if exponent.natAbs ≤ greatestPower then
    (powerOfTen exponent.natAbs).bind
      (if 0 ≤ exponent then product magnitude else quotient magnitude)
  else if magnitude.mantissa = 0 then some magnitude
  else if 0 ≤ exponent then none
  else
    ((powerOfTen greatestPower).bind (quotient magnitude)).bind fun smaller =>
      scaleByTen smaller (exponent + greatestPower)
termination_by exponent.natAbs
decreasing_by simp only [greatestPower] at *; omega

/-- Takes up digits for as long as the significand fits 64 bits, and counts those left over. -/
def gather (significand : Nat) : List Char → Nat × Nat
  | [] => (significand, 0)
  | digit :: rest =>
    let longer := appendDigit significand digit
    if longer < twoTo 64 then gather longer rest else (significand, rest.length + 1)

namespace Numeral

/-- The double that a numeral stands for, or nothing if it is out of range. Digits before the point
that do not fit any more raise the power of ten, and those after it are left out. -/
def stepwise? (numeral : Numeral) : Option Binary :=
  let fraction := numeral.fraction.getD []
  let (whole, raised) := gather 0 numeral.whole
  let (significand, dropped) := gather whole fraction
  let exponent := numeral.shift + raised - (fraction.length - dropped : Nat)
  ((double.nearest false significand 1).bind fun magnitude =>
    scaleByTen magnitude exponent).map fun magnitude =>
      { magnitude with negative := numeral.negative }

/-- The number that a numeral stands for, or nothing if it is out of range. -/
def value? (numeral : Numeral) : Option Number :=
  let magnitude := digitsValue numeral.whole
  if numeral.fraction.isNone ∧ numeral.exponent.isNone ∧
      (if numeral.negative then 0 < magnitude ∧ magnitude ≤ twoTo 63 else magnitude < twoTo 64) then
    some (.int (if numeral.negative then -magnitude else magnitude))
  else numeral.stepwise?.map .real

end Numeral

end Workflow.Number
