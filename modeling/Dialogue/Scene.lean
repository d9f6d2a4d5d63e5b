import Dialogue.Fault

/-!
Where a dialogue stands: the current node, the position in it, the stack and the options queued so far.
-/

namespace Dialogue

/-- A queued option. One without a text shows its destination. -/
structure Choice where
  text : Option UInt64
  destination : String
deriving DecidableEq

structure Scene where
  node : Option String
  position : Nat
  /-- The top of the stack comes first. -/
  stack : List Value
  pending : List Choice
deriving DecidableEq

namespace Scene

def initial : Scene := ⟨none, 0, [], []⟩

/-- Goes to the start of a node with an empty stack; queued options stay. -/
def enter (scene : Scene) (name : String) : Scene := { scene with node := some name, position := 0, stack := [] }

def push (scene : Scene) (value : Value) : Scene := { scene with stack := value :: scene.stack }

def queue (scene : Scene) (choice : Choice) : Scene := { scene with pending := scene.pending ++ [choice] }

def clearPending (scene : Scene) : Scene := { scene with pending := [] }

def peek (scene : Scene) : Except Fault Value :=
  match scene.stack with
  | [] => .error (.stackUnderflow 1 0)
  | value :: _ => .ok value

def pop (scene : Scene) : Except Fault (Value × Scene) :=
  match scene.stack with
  | [] => .error (.stackUnderflow 1 0)
  | value :: rest => .ok (value, { scene with stack := rest })

/-- The topmost values in the order in which they were pushed, and the scene without them. -/
def popMany (scene : Scene) (count : Nat) : Except Fault (List Value × Scene) :=
  if scene.stack.length < count then .error (.stackUnderflow count scene.stack.length)
  else .ok ((scene.stack.take count).reverse, { scene with stack := scene.stack.drop count })

end Scene

end Dialogue
