/-!
Blank characters: the White_Space property of Unicode, which separates words and is trimmed from answers.
-/

namespace Dialogue.Text

/-- Code points of the blank characters that do not form a longer range. -/
def singleBlanks : List Nat := [0x20, 0x85, 0xa0, 0x1680, 0x2028, 0x2029, 0x202f, 0x205f, 0x3000]

def isBlank (c : Char) : Bool :=
  let code := c.toNat
  (0x9 ≤ code && code ≤ 0xd) || (0x2000 ≤ code && code ≤ 0x200a) || singleBlanks.contains code

def trim (text : List Char) : List Char :=
  ((text.dropWhile isBlank).reverse.dropWhile isBlank).reverse

end Dialogue.Text
