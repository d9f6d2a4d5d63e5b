/-!
The numbers of a dialogue: 64-bit binary floating-point words. A number is its word, so the payload of
a NaN and the sign of a zero survive whatever only carries numbers around. Every finite number is a whole
multiple of the least positive one, `2 ^ (-1074)`, which makes its value a natural number of such units.
-/

namespace Dialogue

/-- A 64-bit floating-point word: one sign bit, eleven exponent bits, fifty-two fraction bits. -/
structure Number where
  bits : UInt64
deriving DecidableEq

namespace Number

/-- How many fractions there are to an exponent: the weight of the lowest exponent bit. -/
def fractionCount : Nat := Nat.pow 2 52

/-- The word with all exponent bits set and an empty fraction, as a natural number. -/
def infinityWord : Nat := 2047 * fractionCount

def signWeight : Nat := Nat.pow 2 63

/-- The number whose word is `magnitude` under the given sign. -/
def ofWord (negative : Bool) (magnitude : Nat) : Number :=
  ⟨UInt64.ofNat (if negative then signWeight + magnitude else magnitude)⟩

/-- Whether the sign bit is set, which it may be on a zero and on a NaN too. -/
def isNegative (x : Number) : Bool := signWeight ≤ x.bits.toNat

def magnitudeWord (x : Number) : Nat := x.bits.toNat % signWeight

def exponentField (x : Number) : Nat := x.magnitudeWord / fractionCount

def fractionField (x : Number) : Nat := x.magnitudeWord % fractionCount

def isNaN (x : Number) : Bool := infinityWord < x.magnitudeWord

def isInfinite (x : Number) : Bool := x.magnitudeWord = infinityWord

def isFinite (x : Number) : Bool := x.magnitudeWord < infinityWord

def isZero (x : Number) : Bool := x.magnitudeWord = 0

def zero (negative : Bool) : Number := ofWord negative 0

def infinity (negative : Bool) : Number := ofWord negative infinityWord

/-- The quiet NaN with an empty payload, the answer of every operation without a value. -/
def nan (negative : Bool) : Number := ofWord negative (infinityWord + fractionCount / 2)

/-- The significand of a finite number; below the least exponent the leading bit is not implied. -/
def significand (x : Number) : Nat :=
  if x.exponentField = 0 then x.fractionField else fractionCount + x.fractionField

/-- How many units of `2 ^ (-1074)`, as a power of two, one step of the significand is worth. -/
def scale (x : Number) : Nat := x.exponentField - 1

/-- The absolute value of a finite number, counted in units of `2 ^ (-1074)`. -/
def units (x : Number) : Nat := x.significand * Nat.pow 2 x.scale

/-- The value of a finite number in units of `2 ^ (-1074)`. -/
def signedUnits (x : Number) : Int := if x.isNegative then -(x.units : Int) else x.units

def one : Nat := Nat.pow 2 1074

/-- Where a number stands on the line of all words: words of one sign are ordered as their magnitudes, and
the two zeros share a place. -/
def place (x : Number) : Int := if x.isNegative then -(x.magnitudeWord : Int) else x.magnitudeWord

/-- Numeric equality: a NaN equals nothing, itself included, and the two zeros are equal. -/
def equals (x y : Number) : Bool := !x.isNaN && !y.isNaN && x.place == y.place

/-- Numeric order, false as soon as a NaN takes part. -/
def lessThan (x y : Number) : Bool := !x.isNaN && !y.isNaN && x.place < y.place

/-- Numeric order or equality, false as soon as a NaN takes part. -/
def atMost (x y : Number) : Bool := !x.isNaN && !y.isNaN && x.place ≤ y.place

/-- The number with the other sign; a NaN keeps its payload. -/
def negate (x : Number) : Number := ofWord (!x.isNegative) x.magnitudeWord

end Number

end Dialogue
