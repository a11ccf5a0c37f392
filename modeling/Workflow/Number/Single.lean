/-
This file holds the single-precision numbers that positions, sizes and grid
distances are made of. Unlike values they may overflow to an infinity, and a
product of zero with one is undefined; neither can be written.
-/

import Workflow.Number.Numeral

namespace Workflow.Number

/-- A single-precision number. -/
inductive Single where
  | finite (value : Binary)
  | infinite (negative : Bool)
  | undefined
  deriving DecidableEq

namespace Single

/-- A rounded number; one out of range is an infinity of the given sign. -/
def ofRounded (negative : Bool) : Option Binary → Single
  | some value => finite value
  | none => infinite negative

/-- The number nearest to a natural number. -/
def ofNat (n : Nat) : Single := ofRounded false (single.nearest false n 1)

/-- The number nearest to an integer. -/
def ofInt (n : Int) : Single := ofRounded (n < 0) (single.nearest (n < 0) n.natAbs 1)

/-- The number nearest to a finite number of any format. -/
def ofBinary (value : Binary) : Single :=
  ofRounded value.negative (single.nearestScaled value.negative value.mantissa value.exponent)

/-- The number nearest to a value. -/
def ofNumber : Number → Single
  | .int value => ofInt value
  | .real value => ofBinary value

/-- The product, rounded once. -/
def mul : Single → Single → Single
  | finite a, finite b =>
    let negative := a.negative != b.negative
    ofRounded negative
      (single.nearestScaled negative (a.mantissa * b.mantissa) (a.exponent + b.exponent))
  | finite a, infinite negative =>
    if a.mantissa = 0 then undefined else infinite (a.negative != negative)
  | infinite negative, finite b =>
    if b.mantissa = 0 then undefined else infinite (negative != b.negative)
  | infinite a, infinite b => infinite (a != b)
  | _, _ => undefined

/-- The numeral of a finite number. -/
def numeral? : Single → Option Numeral
  | finite value => some (singleLayout.numeralOf single value)
  | _ => none

end Single

end Workflow.Number
