import Dialogue.Number.Rounding
import Dialogue.Text.Digits

/-!
Decimals, the written form of numbers: a natural number of digits times a power of ten. Holds the nearest
number to a decimal, the positional and the scientific way of writing one, and the reader of number texts.
-/

namespace Dialogue

/-- The decimal `coefficient * 10 ^ exponent`. -/
structure Decimal where
  coefficient : Nat
  exponent : Int
deriving DecidableEq

namespace Decimal

/-- Beyond this power of ten every nonzero decimal is infinite, and below its negative every one is zero. -/
def reach : Nat := 400

/-- The nearest number. An exponent beyond all reach is settled before any power of ten is formed. -/
def toNumber (negative : Bool) (d : Decimal) : Number :=
  if d.coefficient = 0 then .zero negative
  else if (reach : Int) < d.exponent then .infinity negative
  else if d.exponent < -((reach + d.coefficient.log2 : Nat) : Int) then .zero negative
  else if d.exponent < 0 then .ofRatio negative d.coefficient (Nat.pow 10 d.exponent.natAbs)
  else .ofRatio negative (d.coefficient * Nat.pow 10 d.exponent.natAbs) 1

/-- The same value with no zero at the end of its coefficient. -/
def strip (d : Decimal) : Decimal :=
  if positive : 0 < d.coefficient ∧ d.coefficient % 10 = 0 then
    strip ⟨d.coefficient / 10, d.exponent + 1⟩
  else d
termination_by d.coefficient
decreasing_by exact Nat.div_lt_self positive.1 (by decide)

def digits (d : Decimal) : List Char := Text.digits d.coefficient

/-- All digits written out around the decimal point, which is left away when nothing follows it. -/
def positional (d : Decimal) : List Char :=
  let places := d.exponent.natAbs
  if 0 ≤ d.exponent then d.digits ++ List.replicate places '0'
  else
    let padded := List.replicate (places + 1 - d.digits.length) '0' ++ d.digits
    padded.take (padded.length - places) ++ '.' :: padded.drop (padded.length - places)

/-- One digit before the point, the others after it, and the power of ten behind `e`. -/
def scientific (d : Decimal) : List Char :=
  let power := (toString (d.digits.length - 1 + d.exponent)).toList
  d.digits.take 1 ++ (if d.digits.length ≤ 1 then [] else '.' :: d.digits.drop 1) ++ 'e' :: power

end Decimal

namespace Number

/-- Whether a minus sign leads, and what stands behind the sign, if there is one. -/
def splitSign : List Char → Bool × List Char
  | '-' :: rest => (true, rest)
  | '+' :: rest => (false, rest)
  | text => (false, text)

/-- The power of ten behind the digits: nothing, or a letter `e` with a signed row of digits. -/
def readExponent? : List Char → Option Int
  | [] => some 0
  | e :: rest =>
    let (negative, digits) := splitSign rest
    if (e = 'e' || e = 'E') && !digits.isEmpty && digits.all Char.isDigit then
      some (if negative then -(Text.digitsValue digits : Int) else Text.digitsValue digits)
    else none

/-- A decimal without its sign. At least one digit stands before or behind the point. -/
def readDecimal? (text : List Char) : Option Decimal :=
  let whole := text.takeWhile Char.isDigit
  let afterWhole := text.dropWhile Char.isDigit
  let (fraction, rest) := match afterWhole with
    | '.' :: behind => (behind.takeWhile Char.isDigit, behind.dropWhile Char.isDigit)
    | _ => ([], afterWhole)
  if whole.isEmpty && fraction.isEmpty then none
  else (readExponent? rest).map fun power => ⟨Text.digitsValue (whole ++ fraction), power - fraction.length⟩

/-- The words for numbers that have no digits, in any letter case. -/
def readWord? (negative : Bool) (text : List Char) : Option Number :=
  let word := String.ofList (text.map Char.toLower)
  if word = "inf" || word = "infinity" then some (infinity negative)
  else if word = "nan" then some (nan negative)
  else none

/-- Reads a number: a sign, if any, then a decimal, rounded to the nearest number, or one of the words. -/
def read? (text : List Char) : Option Number :=
  let (negative, unsigned) := splitSign text
  match readDecimal? unsigned with
  | some decimal => some (decimal.toNumber negative)
  | none => readWord? negative unsigned

end Number

end Dialogue
