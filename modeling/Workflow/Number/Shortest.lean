/-
This file finds the shortest decimal that reads back as a given binary number.

The reals that round to a number form an interval around it, ends included exactly
if its mantissa is even. For one digit, two digits and so on, the two decimals of
that many digits next to the number are tried; the first length at which one lies
in the interval wins, and of two the nearer one.
-/

import Workflow.Number.Binary

namespace Workflow.Number

/-- A positive decimal: `digits` times ten to the exponent. -/
structure Decimal where
  digits : Nat
  exponent : Int
  deriving DecidableEq

/-- The reals that round to a number, in quarters of the last place of its mantissa. -/
structure Interval where
  low : Nat
  middle : Nat
  high : Nat
  closed : Bool

/-- The interval of a number of the format. Below a power of two the numbers lie twice as dense. -/
def Format.interval (format : Format) (value : Binary) : Interval where
  low :=
    if value.mantissa = twoTo (format.bits - 1) ∧ format.least < value.exponent then
      4 * value.mantissa - 1
    else 4 * value.mantissa - 2
  middle := 4 * value.mantissa
  high := 4 * value.mantissa + 2
  closed := value.mantissa % 2 == 0

/-- The greatest exponent of ten that is at most the given positive fraction, plus one: how many
digits stand before the point, or minus the zeros after it. -/
def decimalMagnitude (numerator denominator : Nat) : Int :=
  if denominator ≤ numerator then digitCount (numerator / denominator)
  else 1 - (digitCount ((denominator + numerator - 1) / numerator - 1) : Int)

/-- A decimal grid over the quarters of a number: `count` quarters are `count * scale / unit` steps
of ten to the grid's exponent. -/
structure Grid where
  scale : Nat
  unit : Nat
  exponent : Int

/-- The grid of step ten to `exponent` over quarters of two to `binaryExponent`. -/
def Grid.over (binaryExponent exponent : Int) : Grid where
  scale := twoTo (binaryExponent - 2).toNat * tenTo (-exponent).toNat
  unit := twoTo (2 - binaryExponent).toNat * tenTo exponent.toNat
  exponent := exponent

/-- Whether a point of the grid lies in the interval. -/
def Grid.within (grid : Grid) (interval : Interval) (point : Nat) : Bool :=
  if interval.closed then
    interval.low * grid.scale ≤ point * grid.unit && point * grid.unit ≤ interval.high * grid.scale
  else
    interval.low * grid.scale < point * grid.unit && point * grid.unit < interval.high * grid.scale

/-- The point of the grid that lies in the interval and is nearest to its middle, if there is one;
of two equally near points the even one. -/
def Grid.hit (grid : Grid) (interval : Interval) : Option Decimal :=
  let middle := interval.middle * grid.scale
  let below := middle / grid.unit
  let above := below + 1
  let point : Option Nat :=
    match grid.within interval below, grid.within interval above with
    | true, true =>
      let gapBelow := middle - below * grid.unit
      let gapAbove := above * grid.unit - middle
      if gapBelow < gapAbove ∨ (gapBelow = gapAbove ∧ below % 2 = 0) then some below else some above
    | true, false => some below
    | false, true => some above
    | false, false => none
  point.map fun digits => ⟨digits, grid.exponent⟩

/-- The decimal without trailing zeros among its digits; `limit` is the most that are removed. -/
def Decimal.strip : Nat → Decimal → Decimal
  | 0, decimal => decimal
  | limit + 1, decimal =>
    if decimal.digits % 10 = 0 then strip limit ⟨decimal.digits / 10, decimal.exponent + 1⟩
    else decimal

/-- The shortest decimal that rounds to the number; no number of a format needs more than 17
digits. -/
def Format.shortest (format : Format) (value : Binary) : Decimal :=
  let interval := format.interval value
  let magnitude :=
    decimalMagnitude (value.mantissa * twoTo value.exponent.toNat) (twoTo (-value.exponent).toNat)
  let hits := (List.range 17).findSome? fun (index : Nat) =>
    (Grid.over value.exponent (magnitude - (index + 1))).hit interval
  (hits.getD ⟨0, 0⟩).strip 17

end Workflow.Number
