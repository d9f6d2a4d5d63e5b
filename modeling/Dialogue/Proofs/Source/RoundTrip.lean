import Dialogue.Proofs.Source.Drafts
import Dialogue.Proofs.Source.Statement

/-!
A listing assembles to the program that it lists, and every program that is assembled can be listed so.
-/

namespace Dialogue

namespace Source

namespace Draft

section Sound

/-- What every draft keeps to: nodes have names, and indices count the string table. -/
structure Sound (draft : Draft) : Prop where
  named : ∀ node ∈ draft.nodes, node.name ≠ ""
  counted : draft.strings.length ≤ 2 ^ 64

theorem empty_sound : Sound .empty := ⟨by simp [empty], by simp [empty]⟩

variable {draft next : Draft}

theorem sound_iff : draft.Sound ↔ "" ∉ draft.names ∧ draft.strings.length ≤ 2 ^ 64 := by
  have named : (∀ node ∈ draft.nodes, node.name ≠ "") ↔ "" ∉ draft.names := by simp [names]
  rw [← named]
  exact ⟨fun sound => ⟨sound.named, sound.counted⟩, fun both => ⟨both.1, both.2⟩⟩

theorem accept_sound (sound : draft.Sound) {statement : Statement} (accepted : draft.accept statement = .ok next)
    (named : ∀ name, statement = .node name → name ≠ "") : next.Sound := by
  obtain ⟨some, counted⟩ := sound_iff.mp sound
  rw [sound_iff]
  rcases accept_cases accepted with ⟨name, stated, _, names, strings⟩ | ⟨index, text, _, inOrder, names, strings⟩ |
    ⟨names, strings⟩
  · rw [names, strings, List.mem_cons]
    exact ⟨not_or_intro (named name stated).symm some, counted⟩
  · have bound := index.toNat_lt
    rw [names, strings, List.length_append, List.length_singleton]
    exact ⟨some, by omega⟩
  · rw [names, strings]
    exact ⟨some, counted⟩

/-- What every accepted statement keeps is kept by all lines. -/
theorem Extends.kept {holds : Draft → Prop} {lines : List (List Char)} (grown : draft.Extends lines next)
    (start : holds draft)
    (each : ∀ {before after line column statement}, holds before →
      readLine line = .ok (some (column, statement)) → before.accept statement = .ok after → holds after) :
    holds next := by
  induction grown with
  | nil => exact start
  | cons added _ ih =>
    apply ih
    rcases addLine_eq_ok.mp added with ⟨_, rfl⟩ | ⟨column, statement, read, accepted⟩
    · exact start
    · exact each start read accepted

theorem Extends.sound {lines : List (List Char)} (grown : draft.Extends lines next) (sound : draft.Sound) :
    next.Sound := by
  refine grown.kept sound fun before read accepted => ?_
  refine accept_sound before accepted fun name stated => ?_
  rw [stated] at read
  exact ne_empty_of_readLine read

end Sound

section Header

variable {draft next : Draft}

/-- No draft takes the header that is written for an empty name. -/
theorem not_addLine_header : draft.addLine ("node ".toList ++ writeName "" ++ [':']) ≠ .ok next := by
  intro added
  obtain ⟨tokens, tokenized, same⟩ := spells_header "" 1
  unfold addLine at added
  rw [tokenized] at added
  obtain ⟨⟨column, _⟩, operands, rfl, rfl, words⟩ := List.map_eq_cons_iff.mp same
  obtain ⟨name, read, _⟩ := eq_ok_of_bind (show (readNodeName column operands >>= _) = _ from added)
  unfold readNodeName at read
  rw [headerName?_headerWords words] at read
  cases read

theorem Extends.added {lines : List (List Char)} (grown : draft.Extends lines next) :
    ∀ line ∈ lines, ∃ before after : Draft, before.addLine line = .ok after := by
  induction grown with
  | nil => simp
  | cons added _ ih => exact List.forall_mem_cons.mpr ⟨⟨_, _, added⟩, ih⟩

end Header

end Draft

section Assembly

theorem Draft.finish_eq_ok {draft : Draft} {program : Program} :
    draft.finish = .ok program ↔ Program.ofNodes draft.name draft.strings draft.nodes.reverse = .ok program := by
  unfold finish
  cases Program.ofNodes draft.name draft.strings draft.nodes.reverse <;> simp

theorem assemble_eq_ok {source : String} {program : Program} :
    assemble source = .ok program ↔
      ∃ draft, Draft.empty.Extends (Text.lines source.toList) draft ∧ draft.finish = .ok program := by
  unfold assemble
  cases added : Draft.empty.addLines 1 (Text.lines source.toList) with
  | error error =>
    constructor
    · rintro ⟨⟩
    · rintro ⟨draft, grown, _⟩
      cases added.symm.trans (Draft.addLines_eq_ok.mpr grown)
  | ok draft =>
    constructor
    · exact fun finished => ⟨draft, Draft.addLines_eq_ok.mp added, finished⟩
    · rintro ⟨other, grown, finished⟩
      cases added.symm.trans (Draft.addLines_eq_ok.mpr grown)
      exact finished

/-- A program that was assembled can be listed in a way that assembles. -/
theorem named_of_assemble {source : String} {program : Program} (assembled : assemble source = .ok program) :
    (∀ node ∈ program.nodes, node.name ≠ "") ∧ program.strings.length ≤ 2 ^ 64 := by
  obtain ⟨draft, grown, finished⟩ := assemble_eq_ok.mp assembled
  have sound := grown.sound Draft.empty_sound
  obtain ⟨_, _, strings, nodes⟩ := Program.ofNodes_eq_ok (Draft.finish_eq_ok.mp finished)
  refine ⟨fun node member => ?_, ?_⟩
  · exact sound.named node (List.mem_reverse.mp (nodes.mem_iff.mp member))
  · rw [strings]
    exact sound.counted

/-- A listing assembles as soon as every node has a name. -/
theorem assemble_of_named {program : Program} (fits : program.strings.length ≤ 2 ^ 64)
    (named : ∀ node ∈ program.nodes, node.name ≠ "") :
    assemble (disassemble program) = .ok (program.mapInstructions (Instruction.mapNumber reread)) := by
  refine assemble_eq_ok.mpr ⟨⟨program.name, program.strings,
    (program.nodes.map (Node.mapInstructions (Instruction.mapNumber reread))).reverse⟩, ?_, ?_⟩
  · -- Ascending names are distinct, so no node is refused as a duplicate.
    have strings : Draft.Extends ⟨program.name, [], []⟩ _ ⟨program.name, program.strings, []⟩ :=
      Draft.extends_strings program.strings (by simpa using fits)
    have nodes : Draft.Extends ⟨program.name, program.strings, []⟩ _ _ :=
      Draft.extends_nodes program program.nodes named program.names_nodup (by simp)
    rw [List.append_nil] at nodes
    rw [lines_disassemble]
    exact ((Draft.extends_headLines program).append strings).append nodes
  · have collected : Program.ofNodes program.name program.strings
        (program.nodes.map (Node.mapInstructions (Instruction.mapNumber reread))) = .ok _ :=
      Program.ofNodes_nodes (program.mapInstructions (Instruction.mapNumber reread))
    rw [Draft.finish_eq_ok, List.reverse_reverse]
    exact collected

theorem named_of_assemble_disassemble {program again : Program}
    (assembled : assemble (disassemble program) = .ok again) : ∀ node ∈ program.nodes, node.name ≠ "" := by
  intro node member empty
  obtain ⟨draft, grown, _⟩ := assemble_eq_ok.mp assembled
  rw [lines_disassemble] at grown
  have header : "node ".toList ++ writeName "" ++ [':'] ∈ listingLines program := by
    refine List.mem_append_right _ (List.mem_flatMap.mpr ⟨node, member, ?_⟩)
    unfold nodeLines
    rw [empty]
    exact List.mem_append_left _ (List.mem_cons_of_mem _ List.mem_cons_self)
  obtain ⟨before, after, added⟩ := grown.added _ header
  exact Draft.not_addLine_header added

end Assembly

section Again

theorem text_reread (x : Number) : (reread x).text = x.text := by
  unfold reread
  split
  next undefined => rw [Number.text_of_isNaN undefined, Number.text_of_isNaN (by decide)]
  next => rfl

theorem instructionLine_mapNumber (program again : Program) (same : again.strings = program.strings) (position : Nat)
    (instruction : Instruction) :
    instructionLine again position (instruction.mapNumber reread) = instructionLine program position instruction := by
  have note : ∀ other : Instruction, writeNote again other = writeNote program other := fun other => by
    unfold writeNote
    rw [same]
  have unchanged : instructionLine again position instruction = instructionLine program position instruction := by
    unfold instructionLine
    rw [note]
  cases instruction with
  | pushNumber value =>
    have words : writeInstruction (.pushNumber (reread value)) = writeInstruction (.pushNumber value) := by
      show joinWords [_, (reread value).text.toList] = _
      rw [text_reread]
      rfl
    show instructionLine again position (.pushNumber (reread value)) = _
    rw [← unchanged]
    unfold instructionLine
    rw [words]
    rfl
  | _ => exact unchanged

/-- The listing of the program that a listing assembles to is that listing. -/
theorem disassemble_mapNumber (program : Program) :
    disassemble (program.mapInstructions (Instruction.mapNumber reread)) = disassemble program := by
  have lines : ∀ node, nodeLines (program.mapInstructions (Instruction.mapNumber reread))
      (node.mapInstructions (Instruction.mapNumber reread)) = nodeLines program node := by
    intro node
    unfold nodeLines Node.mapInstructions
    dsimp only
    rw [List.zipIdx_map, List.map_map]
    congr 1
    apply List.map_congr_left
    intro pair _
    exact instructionLine_mapNumber program _ rfl pair.2 pair.1
  have head : headLines (program.mapInstructions (Instruction.mapNumber reread)) = headLines program := by
    unfold headLines Program.mapInstructions
    dsimp only
    rw [List.length_map]
  have all : listingLines (program.mapInstructions (Instruction.mapNumber reread)) = listingLines program := by
    have nodes : (program.nodes.map (Node.mapInstructions (Instruction.mapNumber reread))).flatMap
        (nodeLines (program.mapInstructions (Instruction.mapNumber reread))) =
          program.nodes.flatMap (nodeLines program) := by
      rw [List.flatMap_map]
      exact congrArg (program.nodes.flatMap ·) (funext lines)
    unfold listingLines
    rw [head]
    exact congrArg (_ ++ ·) nodes
  unfold disassemble
  rw [all]

end Again

/-- The listing of a program assembles exactly if every node has a name. Then it assembles to that program but for the
NaNs, each of which becomes the one that is read from their text, and that program has the same listing. Whatever was
assembled can be listed and assembled again. The string table is as long as one in memory can be. -/
theorem assemble_disassemble :
    (∀ program : Program, program.strings.length ≤ 2 ^ 64 →
      ((∃ again, assemble (disassemble program) = .ok again) ↔ ∀ node ∈ program.nodes, node.name ≠ "") ∧
      ∀ again, assemble (disassemble program) = .ok again →
        again = program.mapInstructions (Instruction.mapNumber reread) ∧ disassemble again = disassemble program) ∧
    (∀ x : Number, (x.isNaN = false → reread x = x) ∧
      (x.isNaN = true → Number.read? "NaN".toList = some (reread x))) ∧
    ∀ source program, assemble source = .ok program → ∃ again, assemble (disassemble program) = .ok again := by
  refine ⟨fun program fits => ⟨⟨?_, ?_⟩, ?_⟩, fun x => ⟨?_, ?_⟩, ?_⟩
  · rintro ⟨again, assembled⟩
    exact named_of_assemble_disassemble assembled
  · exact fun named => ⟨_, assemble_of_named fits named⟩
  · intro again assembled
    have named := named_of_assemble_disassemble assembled
    cases assembled.symm.trans (assemble_of_named fits named)
    exact ⟨rfl, disassemble_mapNumber program⟩
  · intro defined
    unfold reread
    rw [if_neg (by simp [defined])]
  · intro undefined
    unfold reread
    rw [if_pos undefined]
    decide +kernel
  · intro source program assembled
    obtain ⟨named, fits⟩ := named_of_assemble assembled
    exact ⟨_, assemble_of_named fits named⟩

/-- A program whose names are the letters that a source gives a meaning to, with a NaN that the listing cannot tell
from others. -/
def lantern : Program where
  name := "say \"hi\"\n"
  strings := ["a # b", "\\"]
  nodes := [⟨"#:", ["-", "", "two words"], [.label ":", .runLine 7, .addOption none "-",
    .pushNumber ⟨0xfff8000000000123⟩, .pushNumber (.zero true), .stop]⟩]
  ascending := List.pairwise_singleton _ _

/-- The lantern is listed and assembled again with everything but the payload of its NaN. -/
theorem assemble_disassemble_lantern : lantern.strings.length ≤ 2 ^ 64 ∧
    ∃ again, assemble (disassemble lantern) = .ok again ∧ disassemble again = disassemble lantern ∧
      again.name = lantern.name ∧ again.instructionAt? 0 2 = some (.addOption none "-") ∧
      again.instructionAt? 0 3 = some (.pushNumber (.nan false)) ∧
      again.instructionAt? 0 4 = some (.pushNumber (.zero true)) := by
  have fits : lantern.strings.length ≤ 2 ^ 64 := by decide
  obtain ⟨succeeds, same⟩ := assemble_disassemble.1 lantern fits
  obtain ⟨again, assembled⟩ := succeeds.mpr (by decide)
  obtain ⟨rfl, listing⟩ := same again assembled
  exact ⟨fits, _, assembled, listing, rfl, by decide +kernel, by decide +kernel, by decide +kernel⟩

end Source

end Dialogue
