import Dialogue.Fault
import Dialogue.Instruction

/-!
Compiled programs: a name, a string table and nodes. The nodes are kept by ascending name, each name once, so
a program does not depend on the order in which its nodes were given, and every listing of it is stable.
-/

namespace Dialogue

structure Node where
  name : String
  tags : List String
  instructions : List Instruction
deriving DecidableEq

namespace Node

def labelIndex? (node : Node) (label : String) : Option Nat :=
  node.instructions.findIdx? fun instruction => instruction = .label label

def agrees (x y : Node) : Bool :=
  x.name = y.name && x.tags = y.tags && x.instructions.length = y.instructions.length &&
    (x.instructions.zip y.instructions).all fun (first, second) => first.agrees second

/-- Puts a node in front of the first one with a larger name. -/
def insertByName (node : Node) : List Node → List Node
  | [] => [node]
  | other :: rest => if node.name < other.name then node :: other :: rest else other :: node.insertByName rest

theorem mem_insertByName {node other : Node} {nodes : List Node} :
    other ∈ node.insertByName nodes ↔ other = node ∨ other ∈ nodes := by
  induction nodes with
  | nil => simp [insertByName]
  | cons head rest ih =>
    unfold insertByName
    split
    · simp
    · simp only [List.mem_cons, ih]
      constructor <;> rintro (h | h | h) <;> simp [h]

/-- The names ascend strictly, so no name occurs twice. -/
def Ascending (nodes : List Node) : Prop := nodes.Pairwise fun first second => first.name < second.name

theorem ascending_insertByName {node : Node} {nodes : List Node} (ascending : Ascending nodes)
    (fresh : ∀ other ∈ nodes, other.name ≠ node.name) : Ascending (node.insertByName nodes) := by
  induction nodes with
  | nil => simp [insertByName, Ascending]
  | cons head rest ih =>
    obtain ⟨below, ordered⟩ := List.pairwise_cons.mp ascending
    unfold insertByName
    split
    next smaller =>
      refine List.pairwise_cons.mpr ⟨fun other member => ?_, ascending⟩
      rcases List.mem_cons.mp member with same | later
      · exact same ▸ smaller
      · exact String.lt_trans smaller (below other later)
    next larger =>
      refine List.pairwise_cons.mpr ⟨fun other member => ?_, ih ordered fun other later =>
        fresh other (List.mem_cons_of_mem head later)⟩
      rcases mem_insertByName.mp member with same | later
      · have least : head.name ≤ node.name := String.not_lt.mp larger
        have before : head.name < node.name := String.not_le.mp fun greatest =>
          fresh head List.mem_cons_self (String.le_antisymm least greatest)
        exact same ▸ before
      · exact below other later

end Node

structure Program where
  name : String
  strings : List String
  nodes : List Node
  ascending : Node.Ascending nodes

structure DuplicateNode where
  name : String
deriving DecidableEq

def DuplicateNode.message (duplicate : DuplicateNode) : String := s!"duplicate node '{duplicate.name}'"

namespace Program

def empty (name : String) (strings : List String) : Program := ⟨name, strings, [], List.Pairwise.nil⟩

def node? (program : Program) (name : String) : Option Node :=
  program.nodes.find? fun node => node.name = name

def hasNode (program : Program) (name : String) : Bool := (program.node? name).isSome

/-- Adds a node whose name is not taken. -/
def insert (program : Program) (node : Node) : Except DuplicateNode Program :=
  if fresh : ∀ other ∈ program.nodes, other.name ≠ node.name then
    .ok { program with
      nodes := node.insertByName program.nodes
      ascending := Node.ascending_insertByName program.ascending fresh }
  else .error ⟨node.name⟩

/-- Collects nodes into a program, unless a name returns. -/
def ofNodes (name : String) (strings : List String) (nodes : List Node) : Except DuplicateNode Program :=
  nodes.foldlM insert (empty name strings)

def string (program : Program) (index : UInt64) : Except Fault String :=
  match program.strings[index.toNat]? with
  | some text => .ok text
  | none => .error (.missingString index)

/-- Sameness up to numeric equality of the numbers in it. -/
def agrees (x y : Program) : Bool :=
  x.name = y.name && x.strings = y.strings && x.nodes.length = y.nodes.length &&
    (x.nodes.zip y.nodes).all fun (first, second) => first.agrees second

end Program

end Dialogue
