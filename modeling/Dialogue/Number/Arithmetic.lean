import Dialogue.Number.Rounding

/-!
Arithmetic. Each operation rounds its exact result once, to nearest with ties to even; a result that has no
value is the quiet NaN.
-/

namespace Dialogue.Number

/-- The nearest number to a whole number of units; an exact zero takes the sign it is given. -/
def ofSignedUnits (zeroNegative : Bool) (value : Int) : Number :=
  if value = 0 then zero zeroNegative else ofUnits (value < 0) value.natAbs 1

/-- An exact zero sum is negative only if both terms are negative. -/
def add (x y : Number) : Number :=
  if x.isNaN || y.isNaN then nan false
  else if x.isInfinite then
    if y.isInfinite && x.isNegative != y.isNegative then nan false else x
  else if y.isInfinite then y
  else ofSignedUnits (x.isNegative && y.isNegative) (x.signedUnits + y.signedUnits)

def sub (x y : Number) : Number := x.add y.negate

def mul (x y : Number) : Number :=
  let negative := x.isNegative != y.isNegative
  if x.isNaN || y.isNaN then nan false
  else if x.isInfinite || y.isInfinite then
    if x.isZero || y.isZero then nan false else infinity negative
  else ofUnits negative (x.units * y.units) one

def div (x y : Number) : Number :=
  let negative := x.isNegative != y.isNegative
  if x.isNaN || y.isNaN then nan false
  else if x.isInfinite then
    if y.isInfinite then nan false else infinity negative
  else if y.isInfinite then zero negative
  else if y.isZero then
    if x.isZero then nan false else infinity negative
  else ofUnits negative (x.units * one) y.units

/-- The exact remainder of truncating division, with the sign of the dividend. -/
def mod (x y : Number) : Number :=
  if x.isNaN || y.isNaN || x.isInfinite || y.isZero then nan false
  else if y.isInfinite then x
  else ofUnits x.isNegative (x.units % y.units) 1

end Dialogue.Number
