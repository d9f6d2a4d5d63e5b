import Dialogue.Fault
import Dialogue.Text.Quoted

/-!
Host functions. A dialogue calls them by name; what a caller has to know beforehand is the signature.
-/

namespace Dialogue

/-- How many values a function takes from the stack, and whether it puts one back. -/
structure Signature where
  arity : Nat
  returnsValue : Bool
deriving DecidableEq

/-- A callable; its body receives exactly `arity` values in call order and answers a value or a message. -/
structure Function extends Signature where
  name : String
  body : List Value → Except String Value

namespace Function

/-- A function that is called for its value. -/
def returning (name : String) (arity : Nat) (body : List Value → Except String Value) : Function :=
  ⟨⟨arity, true⟩, name, body⟩

/-- A function that is called for its success alone. -/
def procedure (name : String) (arity : Nat) (body : List Value → Except String Unit) : Function :=
  ⟨⟨arity, false⟩, name, fun arguments => (body arguments).map fun _ => .null⟩

def describe (function : Function) : String :=
  s!"Function \x7b name: {Text.describe function.name}, arity: {function.arity}, " ++
    s!"returns_value: {function.returnsValue}, .. \x7d"

end Function

/-- A registry of functions, one to a name. -/
structure Library where
  functions : List Function
  distinct : functions.Pairwise fun first second => first.name ≠ second.name

namespace Library

def empty : Library := ⟨[], List.Pairwise.nil⟩

/-- Adds a function in place of the one that has its name. -/
def register (library : Library) (function : Function) : Library where
  functions := function :: library.functions.filter fun other => other.name ≠ function.name
  distinct := by
    refine List.pairwise_cons.mpr ⟨fun other member => ?_, library.distinct.filter _⟩
    have differs := (List.mem_filter.mp member).2
    simp only [ne_eq, decide_not, Bool.not_eq_eq_eq_not, Bool.not_true, decide_eq_false_iff_not] at differs
    exact fun same => differs same.symm

def ofList (functions : List Function) : Library := functions.foldl register empty

def find? (library : Library) (name : String) : Option Function :=
  library.functions.find? fun function => function.name = name

theorem find?_register_same (library : Library) (function : Function) :
    (library.register function).find? function.name = some function := by
  simp [find?, register]

/-- Registering a function leaves those of other names alone. -/
theorem find?_register_other (library : Library) (function : Function) {name : String}
    (differs : name ≠ function.name) : (library.register function).find? name = library.find? name := by
  simp only [find?, register, List.find?_cons, Ne.symm differs, decide_false, List.find?_filter]
  congr 1
  funext other
  by_cases same : other.name = name <;> simp [same, differs]

def contains (library : Library) (name : String) : Bool := (library.find? name).isSome

def size (library : Library) : Nat := library.functions.length

def isEmpty (library : Library) : Bool := library.functions.isEmpty

inductive CallResult where
  | unknown
  | wrongCount (arity : Nat)
  | called (result : Except String Value)

/-- Calls a function, unless the number of arguments is not its own. -/
def call (library : Library) (name : String) (arguments : List Value) : CallResult :=
  match library.find? name with
  | none => .unknown
  | some function =>
    if arguments.length = function.arity then .called (function.body arguments) else .wrongCount function.arity

end Library

end Dialogue
