import Dialogue.Number.Basic

/-!
Rounding to the nearest number. One function takes any non-negative quotient of two natural numbers, counted
in units of `2 ^ (-1074)`, to the nearest number, a tie to the one with the even significand. Reading a
decimal, converting a natural number and all arithmetic are this function at different quotients.
-/

namespace Dialogue

/-- The natural number nearest to `numerator / denominator`, a tie to the even one. -/
def nearestEven (numerator denominator : Nat) : Nat :=
  let quotient := numerator / denominator
  let remainder := numerator % denominator
  if 2 * remainder < denominator then quotient
  else if denominator < 2 * remainder then quotient + 1
  else quotient + quotient % 2

namespace Number

/-- The nearest number to `numerator / denominator` units. The significand is rounded at the power of two that
leaves it fifty-three bits, or at one unit when the value is too small for that. A significand that rounds up
to the next power of two carries into the exponent field, as it should, and whatever reaches the word of
infinity is infinite. -/
def ofUnits (negative : Bool) (numerator denominator : Nat) : Number :=
  let shift := Nat.log2 (numerator / denominator) - 52
  let significand := nearestEven numerator (denominator * Nat.pow 2 shift)
  ofWord negative (min (shift * fractionCount + significand) infinityWord)

def ofRatio (negative : Bool) (numerator denominator : Nat) : Number :=
  ofUnits negative (numerator * one) denominator

def ofNat (n : Nat) : Number := ofRatio false n 1

/-- The value as a natural number, if it is one; a negative zero counts as zero. -/
def toNat? (x : Number) : Option Nat :=
  if x.isFinite && (!x.isNegative || x.isZero) && x.units % one == 0 then some (x.units / one) else none

end Number

end Dialogue
