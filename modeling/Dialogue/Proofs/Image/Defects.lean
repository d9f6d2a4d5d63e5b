import Dialogue.Proofs.Image.Operands

/-!
Which raw programs become programs, and what is said of the others. All instructions have to be in order and all names
have to differ; otherwise the first instruction that is not in order is named, in the order in which the program is
written, and a name that returns only if there is no such instruction.
-/

namespace Dialogue.Image

section Lists

variable {α β γ : Type}

/-- A list in which not everything is as it should be has a first item that is not. -/
theorem exists_first_not {right : α → Prop} {items : List α} (wrong : ¬∀ item ∈ items, right item) :
    ∃ before item after, items = before ++ item :: after ∧ (∀ other ∈ before, right other) ∧ ¬right item := by
  induction items with
  | nil => exact absurd (by simp) wrong
  | cons head rest ih =>
    by_cases first : right head
    · have later : ¬∀ item ∈ rest, right item := fun all => wrong (List.forall_mem_cons.mpr ⟨first, all⟩)
      obtain ⟨before, item, after, rfl, earlier, refused⟩ := ih later
      exact ⟨head :: before, item, after, rfl, List.forall_mem_cons.mpr ⟨first, earlier⟩, refused⟩
    · exact ⟨[], head, rest, rfl, by simp, first⟩

variable {R : α → β → Prop} {items : List α} {others : List β}

theorem map_eq_of_forall₂ {f : α → γ} {g : β → γ} (all : List.Forall₂ R items others)
    (each : ∀ item other, R item other → f item = g other) : items.map f = others.map g := by
  rw [← List.forall₂_eq_eq_eq]
  exact List.rel_map each all

theorem exists_of_forall₂_of_mem (all : List.Forall₂ R items others) {other : β} (member : other ∈ others) :
    ∃ item ∈ items, R item other := by
  obtain ⟨position, inside, rfl⟩ := List.mem_iff_getElem.mp member
  have before : position < items.length := all.length_eq ▸ inside
  exact ⟨_, List.getElem_mem before, all.get before inside⟩

end Lists

section Instructions

variable {name : String} {raws : List RawInstruction}

theorem readInstructions_of_valid (position : Nat) (valid : ∀ raw ∈ raws, raw.Valid) :
    ∃ instructions, readInstructions name position raws = .ok instructions ∧
      List.Forall₂ RawInstruction.StandsFor raws instructions := by
  induction raws generalizing position with
  | nil => exact ⟨[], rfl, .nil⟩
  | cons raw rest ih =>
    obtain ⟨first, others⟩ := List.forall_mem_cons.mp valid
    obtain ⟨instruction, stands⟩ := RawInstruction.standsFor_of_valid first
    obtain ⟨instructions, read, all⟩ := ih (position + 1) others
    refine ⟨instruction :: instructions, ?_, .cons stands all⟩
    rw [readInstructions, stands.read]
    simp only [read]
    rfl

theorem readInstructions_of_flaw {sound rest : List RawInstruction} {bad : RawInstruction} {flaw : Flaw}
    (position : Nat) (valid : ∀ raw ∈ sound, raw.Valid) (flawed : bad.HasFlaw flaw) :
    readInstructions name position (sound ++ bad :: rest) = .error (.flawed name (position + sound.length) flaw) := by
  induction sound generalizing position with
  | nil =>
    rw [List.nil_append, readInstructions, RawInstruction.toInstruction_of_hasFlaw flawed]
    rfl
  | cons raw sound ih =>
    obtain ⟨first, others⟩ := List.forall_mem_cons.mp valid
    obtain ⟨instruction, stands⟩ := RawInstruction.standsFor_of_valid first
    rw [List.cons_append, readInstructions, stands.read]
    simp only [ih (position + 1) others]
    rw [List.length_cons, Nat.add_assoc, Nat.add_comm 1]
    rfl

end Instructions

namespace RawNode

def Valid (raw : RawNode) : Prop := ∀ instruction ∈ raw.instructions, instruction.Valid

structure StandsFor (raw : RawNode) (node : Node) : Prop where
  read : raw.toNode = .ok node
  name : node.name = raw.name
  tags : node.tags = raw.tags
  instructions : List.Forall₂ RawInstruction.StandsFor raw.instructions node.instructions

theorem standsFor_of_valid {raw : RawNode} (valid : raw.Valid) : ∃ node, raw.StandsFor node := by
  obtain ⟨instructions, read, all⟩ := readInstructions_of_valid 0 valid
  refine ⟨⟨raw.name, raw.tags, instructions⟩, ?_, rfl, rfl, all⟩
  unfold toNode
  rw [read]
  rfl

theorem toNode_of_flaw {raw : RawNode} {sound rest : List RawInstruction} {bad : RawInstruction} {flaw : Flaw}
    (instructions : raw.instructions = sound ++ bad :: rest) (valid : ∀ raw ∈ sound, raw.Valid)
    (flawed : bad.HasFlaw flaw) : raw.toNode = .error (.flawed raw.name sound.length flaw) := by
  unfold toNode
  rw [instructions, readInstructions_of_flaw 0 valid flawed, Nat.zero_add]
  rfl

end RawNode

section Nodes

variable {raws : List RawNode}

theorem mapM_toNode_of_valid (valid : ∀ raw ∈ raws, raw.Valid) :
    ∃ nodes, raws.mapM RawNode.toNode = .ok nodes ∧ List.Forall₂ RawNode.StandsFor raws nodes := by
  induction raws with
  | nil => exact ⟨[], rfl, .nil⟩
  | cons raw rest ih =>
    obtain ⟨first, others⟩ := List.forall_mem_cons.mp valid
    obtain ⟨node, stands⟩ := RawNode.standsFor_of_valid first
    obtain ⟨nodes, read, all⟩ := ih others
    refine ⟨node :: nodes, ?_, .cons stands all⟩
    rw [List.mapM_cons, stands.read, read]
    rfl

theorem mapM_toNode_of_error {before after : List RawNode} {bad : RawNode} {error : RawError}
    (valid : ∀ raw ∈ before, raw.Valid) (failed : bad.toNode = .error error) :
    (before ++ bad :: after).mapM RawNode.toNode = .error error := by
  obtain ⟨nodes, read, _⟩ := mapM_toNode_of_valid valid
  rw [List.mapM_append, read, List.mapM_cons, failed]
  rfl

theorem names_of_standsFor {nodes : List Node} (stands : List.Forall₂ RawNode.StandsFor raws nodes) :
    nodes.map Node.name = raws.map RawNode.name :=
  (map_eq_of_forall₂ stands fun _ _ node => node.name.symm).symm

end Nodes

namespace RawProgram

variable {raw : RawProgram}

/-- All instructions are valid, and no name occurs twice. -/
structure Valid (raw : RawProgram) : Prop where
  nodes : ∀ node ∈ raw.nodes, node.Valid
  distinct : (raw.nodes.map RawNode.name).Nodup

/-- What has to be said of a program that is not valid: what is wrong with its first instruction that is not valid,
with its place, or else which node is the first one whose name has occurred before. -/
inductive FirstDefect (raw : RawProgram) : RawError → Prop
  | flawed {before after : List RawNode} {node : RawNode} {sound rest : List RawInstruction} {bad : RawInstruction}
      {flaw : Flaw} (nodes : raw.nodes = before ++ node :: after) (earlier : ∀ other ∈ before, other.Valid)
      (instructions : node.instructions = sound ++ bad :: rest) (valid : ∀ other ∈ sound, other.Valid)
      (flawed : bad.HasFlaw flaw) : FirstDefect raw (.flawed node.name sound.length flaw)
  | repeated {before after : List RawNode} {node : RawNode} (valid : ∀ node ∈ raw.nodes, node.Valid)
      (nodes : raw.nodes = before ++ node :: after) (distinct : (before.map RawNode.name).Nodup)
      (among : node.name ∈ before.map RawNode.name) : FirstDefect raw (.duplicateNode ⟨node.name⟩)

theorem valid_or_firstDefect (raw : RawProgram) : raw.Valid ∨ ∃ error, raw.FirstDefect error := by
  by_cases valid : ∀ node ∈ raw.nodes, node.Valid
  · by_cases distinct : (raw.nodes.map RawNode.name).Nodup
    · exact .inl ⟨valid, distinct⟩
    · obtain ⟨before, node, after, nodes, apart, among⟩ := exists_first_repeated distinct
      exact .inr ⟨_, .repeated valid nodes apart among⟩
  · obtain ⟨before, node, after, nodes, earlier, wrong⟩ := exists_first_not valid
    obtain ⟨sound, bad, rest, instructions, valid, refused⟩ := exists_first_not wrong
    obtain ⟨flaw, flawed⟩ := bad.valid_or_hasFlaw.resolve_left refused
    exact .inr ⟨_, .flawed nodes earlier instructions valid flawed⟩

/-- The nodes of the program are those that are read, in the order of their names. -/
structure StandsFor (raw : RawProgram) (program : Program) : Prop where
  read : raw.toProgram = .ok program
  name : program.name = raw.name
  strings : program.strings = raw.strings
  nodes : ∃ nodes, List.Forall₂ RawNode.StandsFor raw.nodes nodes ∧ program.nodes.Perm nodes

theorem standsFor_of_valid (valid : raw.Valid) : ∃ program, raw.StandsFor program := by
  obtain ⟨nodes, read, all⟩ := mapM_toNode_of_valid valid.nodes
  have apart : (nodes.map Node.name).Nodup := by
    rw [names_of_standsFor all]
    exact valid.distinct
  obtain ⟨program, collected, name, strings, same⟩ := Program.ofNodes_of_nodup raw.name raw.strings apart
  refine ⟨program, ?_, name, strings, nodes, all, same⟩
  unfold toProgram
  simp only [read, bind, Except.bind, collected]

theorem toProgram_of_firstDefect {error : RawError} (defect : raw.FirstDefect error) :
    raw.toProgram = .error error := by
  unfold toProgram
  cases defect with
  | flawed nodes earlier instructions valid flawed =>
    rw [nodes, mapM_toNode_of_error earlier (RawNode.toNode_of_flaw instructions valid flawed)]
    rfl
  | repeated valid nodes distinct among =>
    obtain ⟨found, read, all⟩ := mapM_toNode_of_valid valid
    have names := names_of_standsFor all
    rw [nodes, List.map_append, List.map_cons] at names
    simp only [read, bind, Except.bind, Program.ofNodes_of_repeated raw.name raw.strings names distinct among]

theorem standsFor_of_toProgram {program : Program} (read : raw.toProgram = .ok program) : raw.StandsFor program := by
  rcases raw.valid_or_firstDefect with valid | ⟨error, defect⟩
  · obtain ⟨other, stands⟩ := standsFor_of_valid valid
    cases stands.read.symm.trans read
    exact stands
  · cases (toProgram_of_firstDefect defect).symm.trans read

end RawProgram

/-- A raw program becomes a program exactly if all of its instructions are valid and no name occurs twice. Otherwise
the error is about the first defect, and about nothing else. -/
theorem toProgram_decides (raw : RawProgram) :
    ((∃ program, raw.toProgram = .ok program) ↔ raw.Valid) ∧
      ∀ error, raw.toProgram = .error error ↔ raw.FirstDefect error := by
  constructor
  · constructor
    · rintro ⟨program, read⟩
      refine raw.valid_or_firstDefect.resolve_right ?_
      rintro ⟨error, defect⟩
      cases read.symm.trans (RawProgram.toProgram_of_firstDefect defect)
    · intro valid
      obtain ⟨program, stands⟩ := RawProgram.standsFor_of_valid valid
      exact ⟨program, stands.read⟩
  · intro error
    constructor
    · intro failed
      rcases raw.valid_or_firstDefect with valid | ⟨other, defect⟩
      · obtain ⟨program, stands⟩ := RawProgram.standsFor_of_valid valid
        cases failed.symm.trans stands.read
      · cases failed.symm.trans (RawProgram.toProgram_of_firstDefect defect)
        exact defect
    · exact RawProgram.toProgram_of_firstDefect

/-- What is wrong with an instruction is told before a name that returns, even if it comes later. -/
example : (RawProgram.mk "ferry" [] [⟨"Pier", [], []⟩, ⟨"Pier", [], []⟩, ⟨"Boat", [],
    [⟨Opcode.stop.byte, .bool true, .none⟩, ⟨0xff, .none, .none⟩]⟩]).toProgram =
      .error (.flawed "Boat" 1 (.unknownOpcode 0xff)) := rfl

end Dialogue.Image
