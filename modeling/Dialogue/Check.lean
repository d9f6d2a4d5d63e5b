import Dialogue.Function
import Dialogue.Program

/-!
The static check of a program. Every jump finds its label, every string index its text, no path through a node
takes more from the stack than it holds, and every instruction is reached with one stack height only. Paths end
where control leaves the node, where a jump takes its target from the stack, and at functions that are not known.
-/

namespace Dialogue

/-- How many values an instruction takes from the stack, and how many it puts back. -/
structure Effect where
  pops : Nat
  pushes : Nat
deriving DecidableEq

abbrev Signatures := String → Option Signature

def noSignatures : Signatures := fun _ => none

namespace Instruction

/-- The effect of an instruction, unless it calls a function that is not known. Looking at the top of the stack is
taking it and putting it back, and showing options puts the chosen destination there. -/
def effect? (signature? : Signatures) : Instruction → Option Effect
  | .label _ | .jumpTo _ | .runLine _ | .runCommand _ | .addOption _ _ | .stop => some ⟨0, 0⟩
  | .jump | .jumpIfFalse _ | .storeVariable _ | .runNode => some ⟨1, 1⟩
  | .showOptions | .pushString _ | .pushNumber _ | .pushBool _ | .pushNull | .pushVariable _ => some ⟨0, 1⟩
  | .pop => some ⟨1, 0⟩
  | .callFunction name => (signature? name).map fun signature => ⟨signature.arity, signature.returnsValue.toNat⟩

end Instruction

inductive Violation where
  | unknownLabel (label : String)
  | stringIndex (index : UInt64)
  | heightMismatch (seen found : Nat)
  | underflow (instruction : Instruction) (needed available : Nat)
deriving DecidableEq

def Violation.message : Violation → String
  | .unknownLabel label => s!"jump to unknown label '{label}'"
  | .stringIndex index => s!"string index {index} out of range"
  | .heightMismatch seen found => s!"stack height mismatch at join point ({seen} vs {found})"
  | .underflow instruction needed available =>
    s!"stack underflow, op={instruction.describe} needed {needed} item(s), have {available}"

structure CheckError where
  node : String
  position : Nat
  violation : Violation
deriving DecidableEq

def CheckError.message (error : CheckError) : String :=
  s!"stack-check error in '{error.node}' at ip={error.position}: {error.violation.message}"

namespace Node

/-- The label or text that an instruction refers to in vain. -/
def danglingReference? (node : Node) (strings : List String) (instruction : Instruction) : Option Violation :=
  let label := instruction.jumpTarget?.bind fun label =>
    if (node.labelIndex? label).isNone then some (.unknownLabel label) else none
  let index := instruction.stringIndex?.bind fun index =>
    if strings.length ≤ index.toNat then some (.stringIndex index) else none
  label.or index

/-- The first instruction that refers to something in vain; `position` is that of the first one given. -/
def firstDangling? (node : Node) (strings : List String) (position : Nat) :
    List Instruction → Option (Nat × Violation)
  | [] => none
  | instruction :: rest =>
    match node.danglingReference? strings instruction with
    | some violation => some (position, violation)
    | none => node.firstDangling? strings (position + 1) rest

/-- Where control may go from an instruction; the position behind the last one is the end of the node. -/
def successors (node : Node) (position : Nat) : Instruction → List Nat
  | .jumpTo label => (node.labelIndex? label).toList
  | .jumpIfFalse label => (position + 1) :: (node.labelIndex? label).toList
  | .jump | .stop | .runNode => []
  | _ => [position + 1]

/-- Stack heights by position, as far as they are known. -/
abbrev Heights := List (Option Nat)

theorem count_none_set {heights : Heights} {position height : Nat} (unseen : heights[position]? = some none) :
    (heights.set position (some height)).count none < heights.count none := by
  induction heights generalizing position with
  | nil => simp at unseen
  | cons head rest ih =>
    cases position with
    | zero =>
      have head_none : head = none := by simpa using unseen
      simp [head_none]
    | succ position =>
      have shorter := ih (by simpa using unseen)
      simp only [List.set_cons_succ, List.count_cons]
      omega

/-- Follows all paths. `reached` holds the positions still to be looked at, each with the height of a path that
leads there; the last one found is looked at first. -/
def explore (node : Node) (signature? : Signatures) (heights : Heights) (reached : List (Nat × Nat)) :
    Except (Nat × Violation) Heights :=
  match reached with
  | [] => .ok heights
  | (position, height) :: others =>
    match known : heights[position]? with
    | none => node.explore signature? heights others
    | some (some seen) =>
      if seen = height then node.explore signature? heights others
      else .error (position, .heightMismatch seen height)
    | some none =>
      have : (heights.set position (some height)).count none < heights.count none := count_none_set known
      let visited := heights.set position (some height)
      match node.instructions[position]? with
      | none => node.explore signature? visited others
      | some instruction =>
        match instruction.effect? signature? with
        | none => node.explore signature? visited others
        | some effect =>
          if height < effect.pops then .error (position, .underflow instruction effect.pops height)
          else
            let next := (node.successors position instruction).map fun target =>
              (target, height - effect.pops + effect.pushes)
            node.explore signature? visited (next.reverse ++ others)
termination_by (heights.count none, reached.length)

/-- The height at which every path from the start of the node, with an empty stack, reaches each instruction. -/
def heights (node : Node) (signature? : Signatures) : Except (Nat × Violation) Heights :=
  node.explore signature? (node.instructions.map fun _ => none) [(0, 0)]

def check (node : Node) (strings : List String) (signature? : Signatures) : Except CheckError Unit :=
  match node.firstDangling? strings 0 node.instructions with
  | some (position, violation) => .error ⟨node.name, position, violation⟩
  | none =>
    match node.heights signature? with
    | .error (position, violation) => .error ⟨node.name, position, violation⟩
    | .ok _ => .ok ()

end Node

/-- Checks the nodes by ascending name and reports the first error. -/
def Program.check (program : Program) (signature? : Signatures) : Except CheckError Unit :=
  program.nodes.forM fun node => node.check program.strings signature?

def Library.signatures (library : Library) : Signatures := fun name =>
  (library.find? name).map Function.toSignature

end Dialogue
