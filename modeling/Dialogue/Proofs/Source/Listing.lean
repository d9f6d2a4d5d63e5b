import Dialogue.Proofs.Number.ReadBack
import Dialogue.Proofs.Source.Spelling
import Dialogue.Source.Assembly

/-!
What the listing writes: rows of characters without line breaks, and in each of them the words that stand for its
directive or instruction. Comments and the blanks in front of them add no words.
-/

namespace Dialogue

namespace Text

/-- A line is told apart from the next by the feed that ends it, as long as it holds no feed and no carriage. -/
theorem linesOf_append {α : Type} [DecidableEq α] {feed carriage : α} {line : List α} (rest : List α)
    (flat : ∀ c ∈ line, c ≠ feed ∧ c ≠ carriage) :
    linesOf feed carriage (line ++ feed :: rest) = line :: linesOf feed carriage rest := by
  induction line with
  | nil => rw [List.nil_append, linesOf, if_pos rfl]
  | cons c line ih =>
    obtain ⟨noFeed, noCarriage⟩ := flat c List.mem_cons_self
    rw [List.cons_append, linesOf, if_neg noFeed, if_neg fun both => noCarriage both.1,
      ih fun other member => flat other (List.mem_cons_of_mem c member)]

/-- The digits of a number are read as that number, as far as it is one of sixty-four bits. -/
theorem readWord?_digits {n : Nat} (small : n < 2 ^ 64) : readWord? (digits n) = some (UInt64.ofNat n) := by
  have digit : ∀ c ∈ digits n, c.isDigit = true := fun c => isDigit_of_mem_digits
  have value := digitsValue_digits n
  have some := digits_ne_nil n
  generalize digits n = row at digit value some
  unfold readWord?
  split
  next rest =>
    exact absurd (digit '+' List.mem_cons_self) (by decide)
  next =>
    have all : row.all Char.isDigit = true := List.all_eq_true.mpr digit
    have size : n < UInt64.size := small
    simp [all, some, value, size]

end Text

namespace Source

section Characters

theorem isBare_of_isDigit {c : Char} (digit : c.isDigit = true) : isBare c = true := by
  have range : 48 ≤ c.toNat ∧ c.toNat ≤ 57 := Char.isDigit_iff_toNat.mp digit
  have visible : Text.isBlank c = false := by
    simp [Text.isBlank, Text.singleBlanks]
    omega
  have noQuote : c ≠ '"' := by
    rintro rfl
    exact absurd digit (by decide)
  simp [isBare, visible, noQuote]

theorem isBareWord_digits (n : Nat) : IsBareWord (Text.digits n) := by
  refine ⟨Text.digits_ne_nil n, ?_, fun c member => isBare_of_isDigit (Text.isDigit_of_mem_digits member)⟩
  intro hash
  exact absurd (Text.isDigit_of_mem_digits (List.mem_of_mem_head? hash)) (by decide)

theorem isBareWord_number (x : Number) : IsBareWord x.text.toList := by
  refine ⟨x.text_ne_nil, ?_, ?_⟩
  · intro hash
    exact absurd (x.mem_text (List.mem_of_mem_head? hash)) (by decide)
  · intro c member
    rcases x.mem_text member with digit | other
    · exact isBare_of_isDigit digit
    · exact List.all_eq_true.mp (show "-.infNa".toList.all isBare = true by decide) c other

theorem isBareWord_mnemonic (opcode : Opcode) : IsBareWord opcode.mnemonic.toList := by
  apply isBareWord_of_check
  cases opcode <;> decide

end Characters

section Operands

/-- The word of an option's text: its index, or a dash for none. -/
def optionWord : Option UInt64 → Word
  | some index => .bare (String.ofList (Text.digits index.toNat))
  | none => .bare "-"

def operandWords : Instruction → List Word
  | .label name | .jumpTo name | .jumpIfFalse name | .callFunction name | .pushVariable name
  | .storeVariable name => [nameWord name]
  | .runLine index | .pushString index => [optionWord (some index)]
  | .runCommand text => [.quoted text]
  | .addOption text destination => [optionWord text, nameWord destination]
  | .pushNumber value => [.bare value.text]
  | .pushBool value => [.bare (if value then "true" else "false")]
  | .jump | .showOptions | .pushNull | .pop | .stop | .runNode => []

theorem writes_index (index : UInt64) : Writes (writeIndex index) (optionWord (some index)) :=
  writes_bare (isBareWord_digits index.toNat)

theorem writes_option (text : Option UInt64) : Writes (writeOptionText text) (optionWord text) := by
  cases text with
  | some index => exact writes_index index
  | none => exact writes_bare (isBareWord_of_check (by decide))

theorem writes_number (x : Number) : Writes x.text.toList (.bare x.text) := by
  have written := writes_bare (isBareWord_number x)
  rwa [String.ofList_toList] at written

theorem writes_operands (instruction : Instruction) :
    List.Forall₂ Writes (writeOperands instruction) (operandWords instruction) := by
  cases instruction with
  | label name | jumpTo name | jumpIfFalse name | callFunction name | pushVariable name | storeVariable name =>
    exact .cons (writes_name name) .nil
  | runLine index | pushString index => exact .cons (writes_index index) .nil
  | runCommand text => exact .cons (writes_quote text) .nil
  | addOption text destination => exact .cons (writes_option text) (.cons (writes_name destination) .nil)
  | pushNumber value => exact .cons (writes_number value) .nil
  | pushBool value =>
    cases value <;> exact .cons (writes_bare (isBareWord_of_check (by decide))) .nil
  | jump | showOptions | pushNull | pop | stop | runNode => exact .nil

theorem writes_mnemonic (instruction : Instruction) :
    Writes instruction.mnemonic.toList (.bare instruction.mnemonic) := by
  have written := writes_bare (isBareWord_mnemonic instruction.opcode)
  rwa [String.ofList_toList] at written

theorem Spells.margin (instruction : Instruction) {rest : List Char} {words : List Word} (behind : Spells rest words) :
    Spells (margin instruction ++ rest) words := by
  unfold Source.margin
  split
  · exact behind.blanks 2
  · exact behind.blanks 4

theorem spells_instructionLine (program : Program) (position : Nat) (instruction : Instruction) :
    Spells (instructionLine program position instruction) (.bare instruction.mnemonic :: operandWords instruction) := by
  have layout : instructionLine program position instruction = margin instruction ++ (writeInstruction instruction ++
      (List.replicate (32 - (writeInstruction instruction).length) ' ' ++
        ' ' :: '#' :: ' ' :: (writePosition position ++ writeNote program instruction))) := by
    simp [instructionLine, padRight]
  have ends : ∀ count behind, EndsWord (List.replicate count ' ' ++ ' ' :: behind) := fun count behind => by
    cases count <;> exact endsWord_cons (by decide)
  have comment := (((spells_comment (' ' :: (writePosition position ++ writeNote program instruction))).blank
    (show Text.isBlank ' ' = true by decide)).blanks (32 - (writeInstruction instruction).length))
  have words := spells_joinWords (writes_mnemonic instruction) (writes_operands instruction) (ends _ _) comment
  rw [List.append_nil] at words
  rw [layout]
  exact words.margin instruction

end Operands

section Flat

def IsFlat (row : List Char) : Prop := ∀ c ∈ row, c ≠ '\n' ∧ c ≠ '\r'

/-- The same as a check, for rows that are known. -/
theorem isFlat_of_check {row : List Char} (checked : row.all (fun c => c != '\n' && c != '\r') = true) :
    IsFlat row := by
  simpa [IsFlat] using checked

theorem isFlat_nil : IsFlat [] := isFlat_of_check rfl

theorem isFlat_append {first second : List Char} : IsFlat (first ++ second) ↔ IsFlat first ∧ IsFlat second := by
  unfold IsFlat
  rw [List.forall_mem_append]

theorem isFlat_cons {c : Char} {rest : List Char} : IsFlat (c :: rest) ↔ (c ≠ '\n' ∧ c ≠ '\r') ∧ IsFlat rest := by
  unfold IsFlat
  rw [List.forall_mem_cons]

theorem isFlat_replicate {c : Char} (flat : c ≠ '\n' ∧ c ≠ '\r') (count : Nat) : IsFlat (List.replicate count c) := by
  intro other member
  rw [List.eq_of_mem_replicate member]
  exact flat

theorem IsBareWord.isFlat {row : List Char} (bare : IsBareWord row) : IsFlat row := by
  intro c member
  have allowed := bare.2.2 c member
  constructor <;> rintro rfl <;> exact absurd allowed (by decide)

theorem isFlat_quote (text : List Char) : IsFlat (Text.quote text) := by
  have escaped : IsFlat (text.flatMap Text.escape) := by
    intro c member
    obtain ⟨original, _, inside⟩ := List.mem_flatMap.mp member
    unfold Text.escape at inside
    rcases Text.escapeLetter?_cases original with ⟨letter, found, _, flat⟩ | ⟨plain, _, _, flat⟩
    · rw [found] at inside
      rcases List.mem_cons.mp inside with rfl | last
      · decide
      · rw [List.mem_singleton.mp last]
        exact flat
    · rw [plain] at inside
      rw [List.mem_singleton.mp inside]
      exact flat
  unfold Text.quote
  exact isFlat_append.mpr ⟨isFlat_cons.mpr ⟨by decide, escaped⟩, isFlat_cons.mpr ⟨by decide, isFlat_nil⟩⟩

theorem isFlat_name (name : String) : IsFlat (writeName name) := by
  unfold writeName
  split
  next plain => exact (isPlainName_iff.mp plain).1.isFlat
  next => exact isFlat_quote name.toList

theorem isFlat_joinWords {rows : List (List Char)} (each : ∀ row ∈ rows, IsFlat row) : IsFlat (joinWords rows) := by
  cases rows with
  | nil => exact isFlat_nil
  | cons row others =>
    rw [joinWords_cons, isFlat_append]
    refine ⟨each row List.mem_cons_self, fun c member => ?_⟩
    obtain ⟨other, later, inside⟩ := List.mem_flatMap.mp member
    exact isFlat_cons.mpr ⟨by decide, each other (List.mem_cons_of_mem row later)⟩ c inside

theorem isFlat_operands (instruction : Instruction) : ∀ row ∈ writeOperands instruction, IsFlat row := by
  cases instruction with
  | label name | jumpTo name | jumpIfFalse name | callFunction name | pushVariable name | storeVariable name =>
    exact List.forall_mem_singleton.mpr (isFlat_name name)
  | runLine index | pushString index => exact List.forall_mem_singleton.mpr (isBareWord_digits _).isFlat
  | runCommand text => exact List.forall_mem_singleton.mpr (isFlat_quote text.toList)
  | addOption text destination =>
    refine List.forall_mem_cons.mpr ⟨?_, List.forall_mem_singleton.mpr (isFlat_name destination)⟩
    cases text with
    | some index => exact (isBareWord_digits _).isFlat
    | none => exact isFlat_cons.mpr ⟨by decide, isFlat_nil⟩
  | pushNumber value => exact List.forall_mem_singleton.mpr (isBareWord_number value).isFlat
  | pushBool value =>
    refine List.forall_mem_singleton.mpr (isFlat_of_check ?_)
    cases value <;> decide
  | jump | showOptions | pushNull | pop | stop | runNode => simp [writeOperands]

theorem isFlat_instructionLine (program : Program) (position : Nat) (instruction : Instruction) :
    IsFlat (instructionLine program position instruction) := by
  have left : IsFlat (margin instruction) := by
    unfold margin
    split <;> exact isFlat_of_check (by decide)
  have words : IsFlat (writeInstruction instruction) :=
    isFlat_joinWords (List.forall_mem_cons.mpr ⟨(isBareWord_mnemonic _).isFlat, isFlat_operands instruction⟩)
  have padded : IsFlat (padRight 32 (writeInstruction instruction)) :=
    isFlat_append.mpr ⟨words, isFlat_replicate (by decide) _⟩
  have hash : IsFlat " # ".toList := isFlat_of_check (by decide)
  have counted : IsFlat (writePosition position) :=
    isFlat_append.mpr ⟨isFlat_replicate (by decide) _, (isBareWord_digits position).isFlat⟩
  have note : IsFlat (writeNote program instruction) := by
    unfold writeNote
    split
    · exact isFlat_nil
    · refine isFlat_cons.mpr ⟨by decide, ?_⟩
      split
      · exact isFlat_quote _
      · exact isFlat_of_check (by decide)
  unfold instructionLine
  simp only [isFlat_append]
  exact ⟨⟨⟨⟨left, padded⟩, hash⟩, counted⟩, note⟩

theorem isFlat_headLines (program : Program) : ∀ line ∈ headLines program, IsFlat line := by
  have ruled : IsFlat rule := isFlat_append.mpr ⟨isFlat_of_check (by decide), isFlat_replicate (by decide) 40⟩
  have counts : IsFlat s!"# {program.nodes.length} node(s), {program.strings.length} string(s)".toList := by
    have digits : ∀ n : Nat, IsFlat (toString n).toList := fun n => by
      rw [Nat.toString_eq_ofList_toDigits, String.toList_ofList]
      exact (isBareWord_digits n).isFlat
    simp only [String.toList_append, isFlat_append]
    exact ⟨⟨⟨⟨isFlat_of_check (by decide), digits _⟩, isFlat_of_check (by decide)⟩, digits _⟩,
      isFlat_of_check (by decide)⟩
  have named : IsFlat (joinWords ["program".toList, Text.quote program.name.toList]) :=
    isFlat_joinWords (List.forall_mem_cons.mpr
      ⟨isFlat_of_check (by decide), List.forall_mem_singleton.mpr (isFlat_quote _)⟩)
  intro line member
  simp only [headLines, List.mem_cons, List.not_mem_nil, or_false] at member
  rcases member with rfl | rfl | rfl | rfl <;> assumption

theorem isFlat_nodeLines (program : Program) (node : Node) : ∀ line ∈ nodeLines program node, IsFlat line := by
  have header : IsFlat ("node ".toList ++ writeName node.name ++ [':']) :=
    isFlat_append.mpr ⟨isFlat_append.mpr ⟨isFlat_of_check (by decide), isFlat_name node.name⟩,
      isFlat_of_check (by decide)⟩
  have tags : IsFlat (joinWords ("    tags".toList :: node.tags.map writeName)) := by
    apply isFlat_joinWords
    refine List.forall_mem_cons.mpr ⟨isFlat_of_check (by decide), fun row written => ?_⟩
    obtain ⟨tag, _, rfl⟩ := List.mem_map.mp written
    exact isFlat_name tag
  intro line member
  unfold nodeLines at member
  rcases List.mem_append.mp member with front | body
  · rcases List.mem_cons.mp front with rfl | front
    · exact isFlat_nil
    rcases List.mem_cons.mp front with rfl | front
    · exact header
    split at front
    · cases front
    · rw [List.mem_singleton.mp front]
      exact tags
  · obtain ⟨⟨instruction, position⟩, _, rfl⟩ := List.mem_map.mp body
    exact isFlat_instructionLine program position instruction

theorem isFlat_listingLines (program : Program) : ∀ line ∈ listingLines program, IsFlat line := by
  intro line member
  rcases List.mem_append.mp member with front | inNode
  · rcases List.mem_append.mp front with head | inStrings
    · exact isFlat_headLines program line head
    · obtain ⟨⟨text, index⟩, _, rfl⟩ := List.mem_map.mp inStrings
      apply isFlat_joinWords
      exact List.forall_mem_cons.mpr ⟨isFlat_of_check (by decide), List.forall_mem_cons.mpr
        ⟨(isBareWord_digits index).isFlat, List.forall_mem_singleton.mpr (isFlat_quote _)⟩⟩
  · obtain ⟨node, _, inside⟩ := List.mem_flatMap.mp inNode
    exact isFlat_nodeLines program node line inside

/-- The source text of a program has the lines that the listing wrote. -/
theorem lines_disassemble (program : Program) : Text.lines (disassemble program).toList = listingLines program := by
  have separate : ∀ rows : List (List Char), (∀ row ∈ rows, IsFlat row) →
      Text.lines (rows.flatMap fun row => row ++ ['\n']) = rows := by
    intro rows flat
    induction rows with
    | nil => rfl
    | cons row others ih =>
      have kept := ih fun other member => flat other (List.mem_cons_of_mem row member)
      rw [List.flatMap_cons, List.append_assoc]
      calc
        _ = row :: Text.lines (others.flatMap fun row => row ++ ['\n']) :=
          Text.linesOf_append _ (flat row List.mem_cons_self)
        _ = row :: others := congrArg (row :: ·) kept
  unfold disassemble
  rw [String.toList_ofList]
  exact separate (listingLines program) (isFlat_listingLines program)

end Flat

end Source

end Dialogue
