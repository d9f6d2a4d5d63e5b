/-!
Natural numbers in decimal digits: their text, and the reader of those that fit sixty-four bits.
-/

namespace Dialogue.Text

def digits (n : Nat) : List Char := Nat.toDigits 10 n

def digitsValue (text : List Char) : Nat := Nat.ofDigitChars 10 text 0

/-- Reads digits, behind a plus sign if there is one, as a number of sixty-four bits. -/
def readWord? (text : List Char) : Option UInt64 :=
  let body := match text with
    | '+' :: rest => rest
    | _ => text
  let value := digitsValue body
  if !body.isEmpty && body.all Char.isDigit && value < UInt64.size then some (UInt64.ofNat value) else none

end Dialogue.Text
