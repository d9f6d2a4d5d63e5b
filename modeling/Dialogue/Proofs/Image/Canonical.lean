import Mathlib.Data.List.Sort
import Dialogue.Proofs.Image.ByteOrder
import Dialogue.Proofs.Image.Defects
import Dialogue.Proofs.Image.Lengths

/-!
Saving what was loaded. A raw program that becomes a program is written back in one form, which stands for the same
program, so that nothing changes from the first loading on.
-/

namespace Dialogue.Image

section Lengths

theorem fits_canonicalOperand {operand : Operand} (fits : operand.Fits) (slot? : Option Slot) :
    (canonicalOperand slot? operand).Fits := by
  rcases slot? with _ | slot
  · trivial
  · cases slot <;> cases operand <;> exact fits

theorem RawInstruction.fits_canonical {raw : RawInstruction} (fits : raw.Fits) : raw.canonical.Fits := by
  unfold canonical
  split
  · exact fits
  · exact ⟨fits_canonicalOperand fits.1 _, fits_canonicalOperand fits.2 _⟩

theorem ListFits.map {α β : Type} {fits : α → Prop} {fitsToo : β → Prop} {f : α → β} {items : List α}
    (all : ListFits fits items) (each : ∀ item, fits item → fitsToo (f item)) : ListFits fitsToo (items.map f) := by
  obtain ⟨count, members⟩ := all
  refine ⟨List.length_map f ▸ count, fun found member => ?_⟩
  obtain ⟨item, inside, rfl⟩ := List.mem_map.mp member
  exact each item (members item inside)

theorem ListFits.of_perm {α : Type} {fits : α → Prop} {items others : List α} (all : ListFits fits items)
    (same : others.Perm items) : ListFits fits others :=
  ⟨same.length_eq ▸ all.1, fun item member => all.2 item (same.mem_iff.mp member)⟩

end Lengths

namespace RawNode

variable {raw : RawNode} {node : Node}

def canonical (raw : RawNode) : RawNode := { raw with instructions := raw.instructions.map .canonical }

theorem fits_canonical (fits : raw.Fits) : raw.canonical.Fits :=
  ⟨fits.1, fits.2.1, fits.2.2.map fun _ => RawInstruction.fits_canonical⟩

theorem StandsFor.written (stands : raw.StandsFor node) : ofNode node = raw.canonical := by
  have instructions : raw.instructions.map .canonical = node.instructions.map RawInstruction.ofInstruction :=
    map_eq_of_forall₂ stands.instructions fun _ _ instruction => instruction.written.symm
  unfold ofNode canonical
  rw [stands.name, stands.tags, instructions]

theorem StandsFor.kept (stands : raw.StandsFor node) :
    node.mapInstructions (Instruction.mapIndex storedIndex) = node := by
  refine Node.mapInstructions_eq_self.mpr fun instruction member => ?_
  obtain ⟨_, _, source⟩ := exists_of_forall₂_of_mem stands.instructions member
  exact source.kept

end RawNode

namespace RawProgram

variable {raw : RawProgram} {program : Program}

/-- Nodes stand in the order of the bytes of their names. -/
def NameLe (first second : RawNode) : Prop := utf8 first.name ≤ utf8 second.name

instance : DecidableRel NameLe := fun first second => inferInstanceAs (Decidable (utf8 first.name ≤ utf8 second.name))

theorem nameLe_iff {first second : RawNode} : NameLe first second ↔ first.name ≤ second.name := utf8_le_iff

instance : IsTrans RawNode NameLe where
  trans first second third := by
    rw [nameLe_iff, nameLe_iff, nameLe_iff]
    exact String.le_trans

instance : Std.Total NameLe where
  total first second := by
    rw [nameLe_iff, nameLe_iff]
    exact String.le_total _ _

/-- The same program with its nodes in order, and in the canonical form each. -/
def canonical (raw : RawProgram) : RawProgram :=
  { raw with nodes := (raw.nodes.map .canonical).insertionSort NameLe }

theorem fits_canonical (fits : raw.Fits) : raw.canonical.Fits :=
  ⟨fits.1, fits.2.1, (fits.2.2.map fun _ => RawNode.fits_canonical).of_perm (List.perm_insertionSort _ _)⟩

/-- Nodes of a program are written in their order, which is the only one by ascending names. -/
theorem StandsFor.written (stands : raw.StandsFor program) : ofProgram program = raw.canonical := by
  obtain ⟨nodes, all, same⟩ := stands.nodes
  have forms : raw.nodes.map .canonical = nodes.map RawNode.ofNode :=
    map_eq_of_forall₂ all fun _ _ node => node.written.symm
  have members : (program.nodes.map RawNode.ofNode).Perm ((raw.nodes.map .canonical).insertionSort NameLe) := by
    rw [forms]
    exact (same.map RawNode.ofNode).trans (List.perm_insertionSort _ _).symm
  have ascending : (program.nodes.map RawNode.ofNode).Pairwise NameLe := by
    refine List.pairwise_map.mpr (List.Pairwise.imp ?_ program.ascending)
    intro first second below
    exact nameLe_iff.mpr (String.not_lt.mp (String.lt_asymm below))
  have ordered : program.nodes.map RawNode.ofNode = (raw.nodes.map .canonical).insertionSort NameLe := by
    refine members.eq_of_pairwise ?_ ascending (List.pairwise_insertionSort _ _)
    intro first second inside among below above
    -- Nodes that stand in both orders have one name, hence are one node.
    obtain ⟨x, here, rfl⟩ := List.mem_map.mp inside
    obtain ⟨y, there, rfl⟩ := List.mem_map.mp (members.mem_iff.mpr among)
    have name : x.name = y.name := String.le_antisymm (nameLe_iff.mp below) (nameLe_iff.mp above)
    rw [List.inj_on_of_nodup_map program.names_nodup here there name]
  unfold ofProgram canonical
  rw [stands.name, stands.strings, ordered]

theorem StandsFor.kept (stands : raw.StandsFor program) :
    program.mapInstructions (Instruction.mapIndex storedIndex) = program := by
  obtain ⟨nodes, all, same⟩ := stands.nodes
  refine Program.mapInstructions_eq_self.mpr fun node member => Node.mapInstructions_eq_self.mp ?_
  obtain ⟨_, _, source⟩ := exists_of_forall₂_of_mem all (same.mem_iff.mp member)
  exact source.kept

end RawProgram

section Saving

/-- Saved and loaded again so many times. -/
def resave (program : Program) : Nat → Except LoadError Program
  | 0 => .ok program
  | times + 1 => do load (save (← resave program times))

/-- What is loaded was read from a body all of whose lengths can be written. -/
theorem load_eq_ok {bytes : List UInt8} {program : Program} (loaded : load bytes = .ok program) :
    ∃ raw : RawProgram, raw.Fits ∧ raw.toProgram = .ok program := by
  unfold load at loaded
  split at loaded
  · cases loaded
  dsimp only at loaded
  split at loaded
  · cases loaded
  split at loaded
  · cases loaded
  next raw rest read =>
    refine ⟨raw, answers_body _ _ _ read, ?_⟩
    unfold ofRaw at loaded
    split at loaded
    next other found =>
      cases loaded
      exact found
    · cases loaded

variable {raw : RawProgram} {program : Program}

theorem resave_of_standsFor (fits : raw.Fits) (stands : raw.StandsFor program) (times : Nat) :
    resave program times = .ok program := by
  induction times with
  | zero => rfl
  | succ times ih =>
    have again : (RawProgram.ofProgram program).Fits := by
      rw [stands.written]
      exact RawProgram.fits_canonical fits
    rw [resave, ih]
    show load (save program) = _
    rw [← List.append_nil (save program), load_save_append program [] again, stands.kept]

end Saving

/-- A raw program that becomes a program is written back in its canonical form, which becomes the same program, bit for
bit. What was loaded once, from a raw program or from bytes, is saved and loaded any number of times without a change.
Of the numbers that stand for an index, only a zero with a sign and those beyond `2 ^ 64` are written as others. -/
theorem ofProgram_toProgram :
    (∀ (raw : RawProgram) (program : Program), raw.toProgram = .ok program →
      RawProgram.ofProgram program = raw.canonical ∧ (RawProgram.ofProgram program).toProgram = .ok program ∧
        (raw.Fits → ∀ times, resave program times = .ok program)) ∧
    (∀ (bytes : List UInt8) (program : Program), load bytes = .ok program →
      (RawProgram.ofProgram program).toProgram = .ok program ∧ ∀ times, resave program times = .ok program) ∧
    indexLimit.HasValue (2 ^ 64 : Nat) ∧ canonicalIndex noText = noText ∧
    ∀ (x : Number) (n : Nat), x.HasValue n →
      canonicalIndex x = if n = 0 then .zero false else if 2 ^ 64 ≤ n then indexLimit else x := by
  have again {raw : RawProgram} {program : Program} (stands : raw.StandsFor program) :
      (RawProgram.ofProgram program).toProgram = .ok program := by rw [toProgram_ofProgram, stands.kept]
  refine ⟨?_, ?_, hasValue_indexLimit, by decide +kernel, fun x n => canonicalIndex_of_hasValue⟩
  · intro raw program read
    have stands := RawProgram.standsFor_of_toProgram read
    exact ⟨stands.written, again stands, fun fits => resave_of_standsFor fits stands⟩
  · intro bytes program loaded
    obtain ⟨raw, fits, read⟩ := load_eq_ok loaded
    have stands := RawProgram.standsFor_of_toProgram read
    exact ⟨again stands, resave_of_standsFor fits stands⟩

/-- Nodes against the order of their bytes, operands that nothing reads, and indices below and beyond all others. -/
def unsorted : RawProgram where
  name := "ferry"
  strings := ["Hop on."]
  nodes := [
    ⟨"😀", ["wet", "wet"], [⟨Opcode.runLine.byte, .number (.zero true), .bool true⟩,
      ⟨Opcode.pushString.byte, .number ⟨0x7e37e43c8800759c⟩, .none⟩]⟩,
    ⟨"�", [], [⟨Opcode.addOption.byte, .number noText, .string "Pier"⟩,
      ⟨Opcode.pushNumber.byte, .number ⟨0xfff8000000000123⟩, .string "?"⟩]⟩]

/-- A minus zero loses its sign, `1e300` becomes `2 ^ 64`, and the payload of a NaN stays. -/
theorem ofProgram_toProgram_unsorted :
    ∃ program, unsorted.toProgram = .ok program ∧
      RawProgram.ofProgram program = ⟨"ferry", ["Hop on."], [
        ⟨"�", [], [⟨Opcode.addOption.byte, .number noText, .string "Pier"⟩,
          ⟨Opcode.pushNumber.byte, .number ⟨0xfff8000000000123⟩, .none⟩]⟩,
        ⟨"😀", ["wet", "wet"], [⟨Opcode.runLine.byte, .number (.zero false), .none⟩,
          ⟨Opcode.pushString.byte, .number indexLimit, .none⟩]⟩]⟩ ∧
      resave program 1 = .ok program ∧
      load (magic ++ littleEndian formatVersion 2 ++ writeBody unsorted ++ [0xff]) = .ok program ∧
      resave program 7 = .ok program ∧ canonicalIndex (.zero true) = .zero false := by
  obtain ⟨ofRaw, ofBytes, _, _, ofIndex⟩ := ofProgram_toProgram
  have fits : unsorted.Fits := by decide +kernel
  have accepted : unsorted.toProgram.toBool = true := by decide +kernel
  cases read : unsorted.toProgram with
  | error error =>
    rw [read] at accepted
    cases accepted
  | ok program =>
    obtain ⟨written, _, kept⟩ := ofRaw unsorted program read
    have loaded : load (magic ++ littleEndian formatVersion 2 ++ writeBody unsorted ++ [0xff]) = .ok program := by
      rw [load_of_reads (reads_body fits), Image.ofRaw, read]
    obtain ⟨_, keptToo⟩ := ofBytes _ program loaded
    have zero : (Number.zero true).HasValue (0 : Nat) := ⟨by decide +kernel, by decide +kernel⟩
    exact ⟨program, rfl, written.trans (by decide +kernel), kept fits 1, loaded, keptToo 7, ofIndex _ 0 zero⟩

end Dialogue.Image
