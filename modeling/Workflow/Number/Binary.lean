/-
This file holds finite binary floating-point numbers and exact rounding to them.

A number is an integer mantissa times a power of two, with a sign that zero has
too. A format fixes how many bits the mantissa has and how far the exponent goes;
rounding picks the nearest number of the format and, of two equally near ones, the
one with the even mantissa. All arithmetic is on naturals, so nothing is lost
before the one rounding step.
-/

namespace Workflow.Number

/-- A finite number: the mantissa times two to the exponent, negated if `negative`. -/
structure Binary where
  negative : Bool
  mantissa : Nat
  exponent : Int
  deriving DecidableEq

/-- A floating-point format: the bits of a mantissa and the range of exponents. -/
structure Format where
  bits : Nat
  least : Int
  greatest : Int

/-- The format of values: 53 bits, up to about 1.8e308. -/
def double : Format := ⟨53, -1074, 971⟩

/-- The format of positions and sizes: 24 bits, up to about 3.4e38. -/
def single : Format := ⟨24, -149, 104⟩

/-- A quotient rounded to the nearest integer, a half to the even one. -/
def roundDiv (numerator denominator : Nat) : Nat :=
  let quotient := numerator / denominator
  let twice := 2 * (numerator % denominator)
  if twice < denominator ∨ (twice = denominator ∧ quotient % 2 = 0) then quotient else quotient + 1

/-- Two to a power. -/
def twoTo (n : Nat) : Nat := Nat.pow 2 n

/-- Ten to a power. -/
def tenTo (n : Nat) : Nat := Nat.pow 10 n

/-- The fraction divided by two to the exponent. -/
def divideByPower (numerator denominator : Nat) (exponent : Int) : Nat × Nat :=
  (numerator * twoTo (-exponent).toNat, denominator * twoTo exponent.toNat)

/-- The greatest exponent of two that is at most the given positive fraction. -/
def binaryMagnitude (numerator denominator : Nat) : Int :=
  let estimate : Int := (numerator.log2 : Int) - denominator.log2
  let (scaled, unit) := divideByPower numerator denominator estimate
  if unit ≤ scaled then estimate else estimate - 1

/-- The number of the format nearest to a fraction, or nothing if that is out of range. -/
def Format.nearest (format : Format) (negative : Bool) (numerator denominator : Nat) :
    Option Binary :=
  if numerator = 0 then some ⟨negative, 0, format.least⟩
  else
    let exponent := max format.least (binaryMagnitude numerator denominator - (format.bits - 1))
    let (scaled, unit) := divideByPower numerator denominator exponent
    let mantissa := roundDiv scaled unit
    let rounded : Binary :=
      if mantissa = twoTo format.bits then ⟨negative, twoTo (format.bits - 1), exponent + 1⟩
      else ⟨negative, mantissa, exponent⟩
    if rounded.exponent ≤ format.greatest then some rounded else none

/-- The number of the format nearest to an integer times a power of two. -/
def Format.nearestScaled (format : Format) (negative : Bool) (mantissa : Nat) (exponent : Int) :
    Option Binary :=
  format.nearest negative (mantissa * twoTo exponent.toNat) (twoTo (-exponent).toNat)

/-- How many decimal digits a natural number has; zero has one. -/
def digitCount (n : Nat) : Nat := (Nat.toDigits 10 n).length

/-- The number of the format nearest to `digits` times ten to the exponent. Powers far beyond every
format are settled without being computed. -/
def Format.ofDecimal (format : Format) (negative : Bool) (digits : Nat) (exponent : Int) :
    Option Binary :=
  let magnitude : Int := digitCount digits + exponent
  if digits = 0 ∨ magnitude < -400 then some ⟨negative, 0, format.least⟩
  else if 400 < magnitude then none
  else format.nearest negative (digits * tenTo exponent.toNat) (tenTo (-exponent).toNat)

end Workflow.Number
