import Dialogue.Image.Container
import Dialogue.Proofs.Image.Codec
import Dialogue.Proofs.Number.Nearest
import Dialogue.Proofs.Program

/-!
Loading undoes saving. Everything comes back as it was but for string indices, which are stored as numbers: one that
is no number comes back as the nearest that is.
-/

namespace Dialogue

namespace Image

section Index

/-- The index as which a stored one comes back. -/
def storedIndex (index : UInt64) : UInt64 := clampIndex (Number.nearestWhole index.toNat)

theorem toNat_clampIndex (n : Nat) : (clampIndex n).toNat = min n (2 ^ 64 - 1) := by
  show (UInt64.ofNat (min _ (2 ^ 64 - 1))).toNat = _
  rw [UInt64.toNat_ofNat']
  exact Nat.mod_eq_of_lt (by omega)

theorem toNat_storedIndex (index : UInt64) :
    (storedIndex index).toNat = min (Number.nearestWhole index.toNat) (2 ^ 64 - 1) :=
  toNat_clampIndex _

/-- An index is kept if it is some number, or if it is the largest of all. -/
theorem storedIndex_eq_self {index : UInt64} :
    storedIndex index = index ↔ (∃ x : Number, x.toNat? = some index.toNat) ∨ index.toNat = 2 ^ 64 - 1 := by
  have bound := index.toNat_lt
  rw [Number.exists_toNat?_iff bound, ← UInt64.toNat_inj, toNat_storedIndex]
  by_cases largest : index.toNat = 2 ^ 64 - 1
  · rw [largest]
    -- Its nearest number is one more, which is clamped back to it.
    have beyond : Number.nearestWhole (2 ^ 64 - 1) = 2 ^ 64 := by decide +kernel
    rw [beyond]
    simp
  · omega

theorem readIndex_of_toNat? (opcode : Opcode) {value : Number} {n : Nat} (whole : value.toNat? = some n) :
    readIndex opcode (.number value) = .ok (clampIndex n) := by
  unfold readIndex
  simp only [whole]

theorem readIndex_writeIndex (opcode : Opcode) (index : UInt64) :
    readIndex opcode (writeIndex index) = .ok (storedIndex index) :=
  readIndex_of_toNat? opcode (Number.toNat?_ofNat index.toNat_lt)

/-- No index is stored as the number that stands for an option without a text. -/
theorem writeIndex_ne_noText (index : UInt64) : writeIndex index ≠ .number noText := by
  intro same
  have sign : (Number.ofNat index.toNat).isNegative = noText.isNegative := by rw [Operand.number.inj same]
  rw [Number.ofNat_eq, Number.isNegative_ofUnits] at sign
  exact absurd sign (by decide)

theorem readOptionText_writeOptionText (opcode : Opcode) (text : Option UInt64) :
    readOptionText opcode (writeOptionText text) = .ok (text.map storedIndex) := by
  cases text with
  | none => exact if_pos rfl
  | some index =>
    unfold readOptionText writeOptionText
    rw [if_neg (writeIndex_ne_noText index), readIndex_writeIndex]
    rfl

end Index

theorem toInstruction_ofInstruction (instruction : Instruction) :
    (RawInstruction.ofInstruction instruction).toInstruction = .ok (instruction.mapIndex storedIndex) := by
  have opcode : (RawInstruction.ofInstruction instruction).opcode = instruction.opcode.byte := rfl
  unfold RawInstruction.toInstruction
  rw [opcode, Opcode.ofByte?_byte]
  show readInstruction instruction.opcode (operandsOf instruction).1 (operandsOf instruction).2 = _
  cases instruction with
  | runLine index =>
    show (readIndex .runLine (writeIndex index)).map Instruction.runLine = _
    rw [readIndex_writeIndex]
    rfl
  | pushString index =>
    show (readIndex .pushString (writeIndex index)).map Instruction.pushString = _
    rw [readIndex_writeIndex]
    rfl
  | addOption text destination =>
    simp only [operandsOf, Instruction.opcode, readInstruction, readOptionText_writeOptionText]
    rfl
  | _ => rfl

theorem readInstructions_ofInstruction (node : String) (position : Nat) (instructions : List Instruction) :
    readInstructions node position (instructions.map .ofInstruction) =
      .ok (instructions.map (Instruction.mapIndex storedIndex)) := by
  induction instructions generalizing position with
  | nil => rfl
  | cons instruction rest ih =>
    rw [List.map_cons, readInstructions, toInstruction_ofInstruction]
    simp only [ih]
    rfl

theorem toNode_ofNode (node : Node) :
    (RawNode.ofNode node).toNode = .ok (node.mapInstructions (Instruction.mapIndex storedIndex)) := by
  unfold RawNode.toNode RawNode.ofNode
  rw [readInstructions_ofInstruction]
  rfl

theorem mapM_toNode_ofNode (nodes : List Node) :
    (nodes.map RawNode.ofNode).mapM RawNode.toNode =
      .ok (nodes.map (Node.mapInstructions (Instruction.mapIndex storedIndex))) := by
  induction nodes with
  | nil => rfl
  | cons node rest ih =>
    rw [List.map_cons, List.mapM_cons, toNode_ofNode, ih]
    rfl

theorem toProgram_ofProgram (program : Program) :
    (RawProgram.ofProgram program).toProgram = .ok (program.mapInstructions (Instruction.mapIndex storedIndex)) := by
  have collected : Program.ofNodes program.name program.strings
      (program.nodes.map (Node.mapInstructions (Instruction.mapIndex storedIndex))) = .ok _ :=
    Program.ofNodes_nodes (program.mapInstructions (Instruction.mapIndex storedIndex))
  unfold RawProgram.toProgram RawProgram.ofProgram
  simp only [mapM_toNode_ofNode]
  simp only [bind, Except.bind, collected]

section Container

/-- What is wrong with the six bytes in front of the body, if anything is. -/
def checkHeader (header : List UInt8) : Except LoadError Unit :=
  if header.take magic.length ≠ magic then .error .badMagic
  else
    let version := ofLittleEndian (header.drop magic.length)
    if version ≠ formatVersion then .error (.unsupportedVersion version) else .ok ()

def loadBody (body : List UInt8) : Except LoadError Program :=
  match readBody body with
  | .error error => .error (.malformed error)
  | .ok (raw, _) => ofRaw raw

/-- What is behind the header counts only if the header is right. -/
theorem load_header_append {header : List UInt8} (length : header.length = headerLength) (body : List UInt8) :
    load (header ++ body) = (checkHeader header).bind fun _ => loadBody body := by
  have marked : (header ++ body).take magic.length = header.take magic.length :=
    List.take_append_of_le_length (by rw [length, headerLength]; omega)
  have behind : (header.drop magic.length).length = 2 := by rw [List.length_drop, length, headerLength]; omega
  have version : ((header ++ body).drop magic.length).take 2 = header.drop magic.length := by
    rw [List.drop_append_of_le_length (by rw [length, headerLength]; omega), ← behind, List.take_left]
  have rest : (header ++ body).drop headerLength = body := by rw [← length, List.drop_left]
  unfold load checkHeader
  rw [marked, version, rest]
  by_cases known : header.take magic.length = magic
  · have same : ¬header.take magic.length ≠ magic := not_not_intro known
    have passed : ¬((header ++ body).length < headerLength ∨ header.take magic.length ≠ magic) := by
      rw [List.length_append, length]
      exact not_or_intro (by omega) same
    rw [if_neg passed, if_neg same]
    dsimp only
    split <;> rfl
  · rw [if_pos (.inr known), if_pos known]
    rfl

theorem load_of_reads {raw : RawProgram} {body : List UInt8} (reads : Reads readBody body raw) (rest : List UInt8) :
    load (magic ++ littleEndian formatVersion 2 ++ body ++ rest) = ofRaw raw := by
  have length : (magic ++ littleEndian formatVersion 2).length = headerLength := rfl
  have passed : checkHeader (magic ++ littleEndian formatVersion 2) = .ok () := rfl
  rw [List.append_assoc, load_header_append length, passed]
  show loadBody (body ++ rest) = _
  unfold loadBody
  rw [reads rest]

end Container

theorem load_save_append (program : Program) (rest : List UInt8) (fits : (RawProgram.ofProgram program).Fits) :
    load (save program ++ rest) = .ok (program.mapInstructions (Instruction.mapIndex storedIndex)) := by
  unfold save
  rw [load_of_reads (reads_body fits) rest, ofRaw, toProgram_ofProgram]

/-- Whatever stands behind the bytes of a saved program, it is loaded with its names, strings, tags and instructions,
each number by its word. Only string indices change, to the whole value of the nearest number as far as that is an
index; those that are numbers themselves, such as all up to `2 ^ 53`, and the largest do not. An option keeps being
one with or without a text. -/
theorem load_save (program : Program) (rest : List UInt8) (fits : (RawProgram.ofProgram program).Fits) :
    ∃ loaded, load (save program ++ rest) = .ok loaded ∧
      loaded = program.mapInstructions (Instruction.mapIndex storedIndex) ∧
      (∀ index, ∃ nearest : Number, ∃ n, nearest.IsNearest index.toNat ∧ nearest.toNat? = some n ∧
        (storedIndex index).toNat = min n (2 ^ 64 - 1)) ∧
      (loaded = program ↔ ∀ node ∈ program.nodes, ∀ instruction ∈ node.instructions, ∀ index,
        instruction.stringIndex? = some index →
          (∃ x : Number, x.toNat? = some index.toNat) ∨ index.toNat = 2 ^ 64 - 1) ∧
      ((∀ node ∈ program.nodes, ∀ instruction ∈ node.instructions, ∀ index,
        instruction.stringIndex? = some index → index.toNat ≤ 2 ^ 53) → loaded = program) ∧
      ∀ node position destination,
        (loaded.instructionAt? node position = some (.addOption none destination) ↔
          program.instructionAt? node position = some (.addOption none destination)) ∧
        ((∃ index, loaded.instructionAt? node position = some (.addOption (some index) destination)) ↔
          ∃ index, program.instructionAt? node position = some (.addOption (some index) destination)) := by
  have kept : program.mapInstructions (Instruction.mapIndex storedIndex) = program ↔
      ∀ node ∈ program.nodes, ∀ instruction ∈ node.instructions, ∀ index,
        instruction.stringIndex? = some index →
          (∃ x : Number, x.toNat? = some index.toNat) ∨ index.toNat = 2 ^ 64 - 1 := by
    simp only [Program.mapInstructions_eq_self, Instruction.mapIndex_eq_self, storedIndex_eq_self]
  refine ⟨_, load_save_append program rest fits, rfl, ?_, kept, ?_, ?_⟩
  · intro index
    have bound := index.toNat_lt
    exact ⟨.ofNat index.toNat, _, Number.isNearest_ofNat bound, Number.toNat?_ofNat bound, toNat_storedIndex index⟩
  · intro small
    refine kept.mpr fun node member instruction inside index found => .inl ?_
    have whole := Number.nearestWhole_of_le (small node member instruction inside index found)
    exact (Number.exists_toNat?_iff index.toNat_lt).mpr whole
  · intro node position destination
    rw [Program.instructionAt?_mapInstructions]
    cases program.instructionAt? node position with
    | none => simp
    | some instruction =>
      simp only [Option.map_some, Option.some.injEq]
      exact Instruction.mapIndex_eq_addOption storedIndex instruction destination

/-- A program with an index that is no number, options of both kinds and a NaN with a payload. -/
def ferry : Program where
  name := "ferry"
  strings := ["Hop on.", "Über den Fluß"]
  nodes := [⟨"Pier", ["wet"], [.runLine 9007199254740993, .addOption none "Pier", .addOption (some 1) "Pier",
    .pushNumber ⟨0xfff8000000000123⟩, .stop]⟩]
  ascending := List.pairwise_singleton _ _

/-- The index of the ferry comes back as the even one of its neighbours. -/
theorem load_save_ferry : (RawProgram.ofProgram ferry).Fits ∧ ∃ loaded, load (save ferry ++ [0xff]) = .ok loaded ∧
    loaded ≠ ferry ∧ loaded.instructionAt? 0 0 = some (.runLine 9007199254740992) ∧
    loaded.instructionAt? 0 3 = some (.pushNumber ⟨0xfff8000000000123⟩) := by
  have fits : (RawProgram.ofProgram ferry).Fits := by decide +kernel
  obtain ⟨loaded, read, rfl, _⟩ := load_save ferry [0xff] fits
  have moved : (ferry.mapInstructions (Instruction.mapIndex storedIndex)).instructionAt? 0 0 =
      some (.runLine 9007199254740992) := by decide +kernel
  refine ⟨fits, _, read, ?_, moved, by decide +kernel⟩
  intro same
  rw [same] at moved
  exact absurd moved (by decide +kernel)

end Image

end Dialogue
