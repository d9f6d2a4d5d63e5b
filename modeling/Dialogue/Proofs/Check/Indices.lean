import Dialogue.Proofs.Check.Heights
import Dialogue.Proofs.Program

/-!
What the check makes of string indices. It asks of an index only whether it lies in the string table, so a program
whose indices are replaced by others that lie in the table if and only if they do is accepted just like the first,
and refused at the same place.
-/

namespace Dialogue

def Violation.mapIndex (f : UInt64 → UInt64) : Violation → Violation
  | .stringIndex index => .stringIndex (f index)
  | .underflow instruction needed available => .underflow (instruction.mapIndex f) needed available
  | other => other

def CheckError.mapIndex (f : UInt64 → UInt64) (error : CheckError) : CheckError :=
  { error with violation := error.violation.mapIndex f }

theorem Instruction.effect?_mapIndex (f : UInt64 → UInt64) (signature? : Signatures) (instruction : Instruction) :
    (instruction.mapIndex f).effect? signature? = instruction.effect? signature? := by
  cases instruction <;> rfl

namespace Node

variable (f : UInt64 → UInt64) (node : Node) (signature? : Signatures)

theorem successors_mapIndex (position : Nat) (instruction : Instruction) :
    (node.mapInstructions (.mapIndex f)).successors position (instruction.mapIndex f) =
      node.successors position instruction := by
  cases instruction with
  | jumpTo label | jumpIfFalse label => simp only [Instruction.mapIndex, successors, labelIndex?_mapIndex]
  | _ => rfl

theorem explore_mapIndex (heights : Heights) (reached : List (Nat × Nat)) :
    (node.mapInstructions (.mapIndex f)).explore signature? heights reached =
      (node.explore signature? heights reached).mapError fun (position, violation) =>
        (position, violation.mapIndex f) := by
  have there (position : Nat) : (node.mapInstructions (.mapIndex f)).instructions[position]? =
      node.instructions[position]?.map (.mapIndex f) := List.getElem?_map
  fun_induction node.explore signature? heights reached with
  | case1 => rw [explore]; rfl
  | case2 heights position height others outside ih => rw [explore_outside _ _ outside, ih]
  | case3 heights position others height recorded ih => rw [explore_seen _ _ recorded, if_pos rfl, ih]
  | case4 heights position height others seen recorded differs =>
    rw [explore_seen _ _ recorded, if_neg differs]
    rfl
  | case5 heights position height others unseen _ visited beyond ih =>
    rw [explore_unseen _ _ unseen, there, beyond]
    exact ih
  | case6 heights position height others unseen _ visited instruction here unknown ih =>
    rw [explore_unseen _ _ unseen, there, here]
    simp only [Option.map_some, Instruction.effect?_mapIndex, unknown]
    exact ih
  | case7 heights position height others unseen _ instruction here effect known short =>
    rw [explore_unseen _ _ unseen, there, here]
    simp only [Option.map_some, Instruction.effect?_mapIndex, known, if_pos short]
    rfl
  | case8 heights position height others unseen _ visited instruction here effect known enough next ih =>
    rw [explore_unseen _ _ unseen, there, here]
    simp only [Option.map_some, Instruction.effect?_mapIndex, known, if_neg enough, successors_mapIndex]
    exact ih

section InTable

variable {f : UInt64 → UInt64} {strings : List String}
  (inTable : ∀ index : UInt64, strings.length ≤ (f index).toNat ↔ strings.length ≤ index.toNat)

include inTable

theorem danglingReference?_mapIndex (instruction : Instruction) :
    (node.mapInstructions (.mapIndex f)).danglingReference? strings (instruction.mapIndex f) =
      (node.danglingReference? strings instruction).map (Violation.mapIndex f) := by
  have label : (instruction.jumpTarget?.bind fun label =>
        if (node.labelIndex? label).isNone then some (Violation.unknownLabel label) else none) =
      (instruction.jumpTarget?.bind fun label =>
        if (node.labelIndex? label).isNone then some (Violation.unknownLabel label) else none).map
          (Violation.mapIndex f) := by
    cases instruction.jumpTarget? with
    | none => rfl
    | some label => cases (node.labelIndex? label).isNone <;> simp [Violation.mapIndex]
  have index : ((instruction.stringIndex?.map f).bind fun index =>
        if strings.length ≤ index.toNat then some (Violation.stringIndex index) else none) =
      (instruction.stringIndex?.bind fun index =>
        if strings.length ≤ index.toNat then some (Violation.stringIndex index) else none).map
          (Violation.mapIndex f) := by
    cases instruction.stringIndex? with
    | none => rfl
    | some index => by_cases beyond : strings.length ≤ index.toNat <;> simp [beyond, inTable, Violation.mapIndex]
  unfold danglingReference?
  simp only [Instruction.jumpTarget?_mapIndex, Instruction.stringIndex?_mapIndex, labelIndex?_mapIndex]
  rw [index, Option.map_or, ← label]

theorem firstDangling?_mapIndex (position : Nat) (instructions : List Instruction) :
    (node.mapInstructions (.mapIndex f)).firstDangling? strings position (instructions.map (.mapIndex f)) =
      (node.firstDangling? strings position instructions).map fun (position, violation) =>
        (position, violation.mapIndex f) := by
  induction instructions generalizing position with
  | nil => rfl
  | cons instruction rest ih =>
    rw [List.map_cons, firstDangling?, firstDangling?, danglingReference?_mapIndex node inTable]
    cases node.danglingReference? strings instruction with
    | some violation => rfl
    | none => exact ih (position + 1)

theorem check_mapIndex :
    (node.mapInstructions (.mapIndex f)).check strings signature? =
      (node.check strings signature?).mapError (CheckError.mapIndex f) := by
  have dangling : (node.mapInstructions (.mapIndex f)).firstDangling? strings 0
        (node.mapInstructions (.mapIndex f)).instructions =
      (node.firstDangling? strings 0 node.instructions).map fun (position, violation) =>
        (position, violation.mapIndex f) := node.firstDangling?_mapIndex inTable 0 node.instructions
  have heights : (node.mapInstructions (.mapIndex f)).heights signature? =
      (node.heights signature?).mapError fun (position, violation) => (position, violation.mapIndex f) := by
    have start : ((node.instructions.map (Instruction.mapIndex f)).map fun _ => (none : Option Nat)) =
        node.instructions.map fun _ => none := List.map_map
    unfold Node.heights
    rw [← node.explore_mapIndex f]
    exact congrArg (fun heights => (node.mapInstructions (.mapIndex f)).explore signature? heights [(0, 0)]) start
  unfold check
  rw [dangling, heights]
  cases node.firstDangling? strings 0 node.instructions with
  | some found => rfl
  | none => cases node.heights signature? <;> rfl

end InTable

end Node

/-- The check of a program with other indices, which lie in the table just like the first. -/
theorem Program.check_mapIndex {f : UInt64 → UInt64} {program : Program} (signature? : Signatures)
    (inTable : ∀ index : UInt64, program.strings.length ≤ (f index).toNat ↔ program.strings.length ≤ index.toNat) :
    (program.mapInstructions (.mapIndex f)).check signature? =
      (program.check signature?).mapError (CheckError.mapIndex f) := by
  have checked (nodes : List Node) :
      ((nodes.map (Node.mapInstructions (.mapIndex f))).forM fun node => node.check program.strings signature?) =
        (nodes.forM fun node => node.check program.strings signature?).mapError (CheckError.mapIndex f) := by
    induction nodes with
    | nil => rfl
    | cons node rest ih =>
      change ((node.mapInstructions (.mapIndex f)).check program.strings signature? >>= fun _ =>
          (rest.map (Node.mapInstructions (.mapIndex f))).forM fun node => node.check program.strings signature?) =
        (node.check program.strings signature? >>= fun _ =>
          rest.forM fun node => node.check program.strings signature?).mapError (CheckError.mapIndex f)
      rw [node.check_mapIndex signature? inTable, ih]
      cases node.check program.strings signature? <;> rfl
  exact checked program.nodes

end Dialogue
