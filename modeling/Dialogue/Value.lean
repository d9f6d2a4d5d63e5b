import Dialogue.Number.Shortest

/-!
The values a dialogue computes with. A value is never converted silently: whoever needs a certain kind asks
for it and is told which kind it met instead.
-/

namespace Dialogue

inductive Kind where
  | number
  | string
  | bool
  | null
deriving DecidableEq

def Kind.name : Kind → String
  | .number => "number"
  | .string => "string"
  | .bool => "bool"
  | .null => "null"

inductive Value where
  | number (value : Number)
  | string (value : String)
  | bool (value : Bool)
  | null
deriving DecidableEq

namespace Value

def kind : Value → Kind
  | .number _ => .number
  | .string _ => .string
  | .bool _ => .bool
  | .null => .null

/-- The text of a value, as it is joined to other text; a string shows no quotes. -/
def text : Value → String
  | .number value => value.text
  | .string value => value
  | .bool value => if value then "true" else "false"
  | .null => "null"

/-- Equality within a dialogue: numbers compare as numbers, so a NaN differs from itself, and values of two
kinds are never equal. -/
def equals : Value → Value → Bool
  | .number x, .number y => x.equals y
  | x, y => x = y

end Value

end Dialogue
