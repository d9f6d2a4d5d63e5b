import Dialogue.Number.Decimal

/-!
The shortest decimal that reads back as a given number, and the two texts of a number made from it. A
decimal is only ever chosen because reading it gives the number again, so a written number always reads back.
-/

namespace Dialogue.Number

/-- How many digits stand before the decimal point; for a value below one, minus the zeros right behind it. -/
def leadingPower (x : Number) : Int :=
  (Text.digits (x.units * Nat.pow 10 Decimal.reach / one)).length - (Decimal.reach : Int)

/-- Of the two multiples of `10 ^ exponent` around the value, the nearest that reads back, if either does. A
value halfway between them prefers the larger. -/
def decimalAt? (x : Number) (exponent : Int) : Option Decimal :=
  let power := Nat.pow 10 exponent.natAbs
  let (numerator, denominator) :=
    if exponent < 0 then (x.units * power, one) else (x.units, one * power)
  let quotient := numerator / denominator
  let below := (Decimal.mk quotient exponent).strip
  let above := (Decimal.mk (quotient + 1) exponent).strip
  let nearestFirst :=
    if 2 * (numerator % denominator) < denominator then [below, above] else [above, below]
  nearestFirst.find? fun d => d.toNumber x.isNegative = x

/-- All digits of a finite number: one unit is `5 ^ 1074` times the 1074th negative power of ten. -/
def exactDecimal (x : Number) : Decimal := (Decimal.mk (x.units * Nat.pow 5 1074) (-1074)).strip

/-- The fewest digits that read back, which are never more than seventeen. -/
def shortestDecimal (x : Number) : Decimal :=
  if x.isZero then ⟨0, 0⟩
  else
    let leading := x.leadingPower
    ((List.range' 1 17).findSome? fun (count : Nat) => x.decimalAt? (leading - count)).getD x.exactDecimal

def sign (x : Number) : List Char := if x.isNegative then ['-'] else []

/-- The text of a number: the shortest digits that read back, never with a power of ten. -/
def text (x : Number) : String :=
  if x.isNaN then "NaN"
  else if x.isInfinite then String.ofList (x.sign ++ ['i', 'n', 'f'])
  else String.ofList (x.sign ++ x.shortestDecimal.positional)

/-- The values written positionally in diagnostics: zero, and from `10 ^ (-4)` to below `10 ^ 16`. -/
def isModerate (x : Number) : Bool :=
  x.isZero || (one ≤ x.units * Nat.pow 10 4 && x.units < Nat.pow 10 16 * one)

/-- The text of a number in diagnostics: a whole number shows a zero behind its point, and very large or very
small values show a power of ten. -/
def describe (x : Number) : String :=
  if !x.isFinite then x.text
  else
    let decimal := x.shortestDecimal
    let body :=
      if !x.isModerate then decimal.scientific
      else if decimal.exponent < 0 then decimal.positional
      else decimal.positional ++ ['.', '0']
    String.ofList (x.sign ++ body)

end Dialogue.Number
