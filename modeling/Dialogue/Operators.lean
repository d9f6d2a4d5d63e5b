import Dialogue.Function
import Dialogue.Number.Arithmetic

/-!
The standard library: the operators of dialogue expressions. Operands are looked at from left to right, and the
first one of a wrong kind is the one reported.
-/

namespace Dialogue.Operators

def unary (name : String) (body : Value → Except String Value) : Function :=
  .returning name 1 fun
    | [x] => body x
    | _ => .error "expected 1 argument"

def binary (name : String) (body : Value → Value → Except String Value) : Function :=
  .returning name 2 fun
    | [x, y] => body x y
    | _ => .error "expected 2 arguments"

def number (value : Value) : Except String Number := value.asNumber.mapError Fault.message

def bool (value : Value) : Except String Bool := value.asBool.mapError Fault.message

def arithmetic (name : String) (operate : Number → Number → Number) : Function :=
  binary name fun x y => return .number (operate (← number x) (← number y))

def comparison (name : String) (compare : Number → Number → Bool) : Function :=
  binary name fun x y => return .bool (compare (← number x) (← number y))

def logic (name : String) (operate : Bool → Bool → Bool) : Function :=
  binary name fun x y => return .bool (operate (← bool x) (← bool y))

/-- Adds numbers, and joins the texts of two values of which one is a string. -/
def add (x y : Value) : Except String Value :=
  match x, y with
  | .number a, .number b => .ok (.number (a.add b))
  | .string _, _ | _, .string _ => .ok (.string (x.text ++ y.text))
  | _, _ => .error s!"cannot add {x.kind.name} and {y.kind.name}"

def all : List Function := [
  binary "Add" add,
  arithmetic "Minus" Number.sub,
  arithmetic "Multiply" Number.mul,
  arithmetic "Divide" Number.div,
  arithmetic "Modulo" Number.mod,
  unary "UnaryMinus" fun x => return .number (← number x).negate,
  binary "EqualTo" fun x y => .ok (.bool (x.equals y)),
  binary "NotEqualTo" fun x y => .ok (.bool (!x.equals y)),
  comparison "GreaterThan" fun x y => y.lessThan x,
  comparison "GreaterThanOrEqualTo" fun x y => y.atMost x,
  comparison "LessThan" Number.lessThan,
  comparison "LessThanOrEqualTo" Number.atMost,
  logic "And" and,
  logic "Or" or,
  logic "Xor" xor,
  unary "Not" fun x => return .bool !(← bool x)]

def library : Library := .ofList all

end Dialogue.Operators
