import Dialogue.Text.Unseen

/-!
Quoted text. Sources write a text between double quotes with five escapes; diagnostics also quote, and show by
number whatever would not be seen.
-/

namespace Dialogue.Text

/-- The letter that stands behind a backslash for a character that sources escape. -/
def escapeLetter? (c : Char) : Option Char :=
  if c = '"' then some '"'
  else if c = '\\' then some '\\'
  else if c = '\n' then some 'n'
  else if c = '\t' then some 't'
  else if c = '\r' then some 'r'
  else none

/-- The character that a letter behind a backslash stands for. -/
def unescapeLetter? (c : Char) : Option Char :=
  if c = 'n' then some '\n'
  else if c = 't' then some '\t'
  else if c = 'r' then some '\r'
  else if c = '\\' then some '\\'
  else if c = '"' then some '"'
  else none

/-- A character as it stands between the quotes of a source. -/
def escape (c : Char) : List Char :=
  match escapeLetter? c with
  | some letter => ['\\', letter]
  | none => [c]

/-- A text between quotes, as sources write it. -/
def quote (text : List Char) : List Char := '"' :: text.flatMap escape ++ ['"']

/-- A character as it stands between the quotes of a diagnostic. -/
def exhibit (c : Char) : List Char :=
  match escapeLetter? c with
  | some letter => ['\\', letter]
  | none =>
    if c.toNat = 0 then ['\\', '0']
    else if isUnseen c then ['\\', 'u', '\x7b'] ++ Nat.toDigits 16 c.toNat ++ ['\x7d']
    else [c]

/-- A text between quotes, as diagnostics write it. -/
def describe (text : String) : String := String.ofList ('"' :: text.toList.flatMap exhibit ++ ['"'])

end Dialogue.Text
