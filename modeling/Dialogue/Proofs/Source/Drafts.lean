import Dialogue.Proofs.Program
import Dialogue.Proofs.Source.Listing

/-!
What each line of a listing does to the draft of a program: a head names it, a string line extends its table, and the
lines of a node add that node. The one thing that they do not tell is which NaN a NaN was.
-/

namespace Dialogue

def Instruction.mapNumber (f : Number → Number) : Instruction → Instruction
  | .pushNumber value => .pushNumber (f value)
  | other => other

namespace Source

section Operands

/-- The number as which the text of a number is read; every NaN is written alike. -/
def reread (x : Number) : Number := if x.isNaN then .nan false else x

theorem readNumber_text (column : Nat) (x : Number) : readNumber ⟨column, .bare x.text⟩ = .ok (reread x) := by
  have read : Number.read? x.text.toList = some (reread x) := by
    unfold reread
    split
    next undefined =>
      rw [Number.text_of_isNaN undefined]
      decide +kernel
    next defined => exact Number.read?_text (Bool.eq_false_iff.mpr defined)
  unfold readNumber
  dsimp only [Token.text, Word.text]
  rw [read]

theorem readIndex_digits (column : Nat) {n : Nat} (small : n < 2 ^ 64) :
    readIndex ⟨column, .bare (String.ofList (Text.digits n))⟩ = .ok (UInt64.ofNat n) := by
  unfold readIndex
  dsimp only
  rw [String.toList_ofList, Text.readWord?_digits small]

theorem readIndex_optionWord (column : Nat) (index : UInt64) :
    readIndex ⟨column, optionWord (some index)⟩ = .ok index := by
  have read := readIndex_digits column index.toNat_lt
  rwa [UInt64.ofNat_toNat] at read

theorem readOptionText_optionWord (column : Nat) (text : Option UInt64) :
    readOptionText ⟨column, optionWord text⟩ = .ok text := by
  cases text with
  | none => exact if_pos rfl
  | some index =>
    have noDash : optionWord (some index) ≠ .bare "-" := by
      intro same
      have digits : Text.digits index.toNat = ['-'] := by
        have text := congrArg (fun word => word.text.toList) same
        exact (String.toList_ofList).symm.trans text
      have minus : '-' ∈ Text.digits index.toNat := by
        rw [digits]
        exact List.mem_singleton_self '-'
      exact absurd (Text.isDigit_of_mem_digits minus) (by decide)
    unfold readOptionText
    rw [if_neg noDash, readIndex_optionWord]
    rfl

theorem eq_singleton_of_map {tokens : List Token} {word : Word} (words : tokens.map Token.word = [word]) :
    ∃ column, tokens = [⟨column, word⟩] := by
  obtain ⟨⟨column, _⟩, rfl, rfl⟩ := List.map_eq_singleton_iff.mp words
  exact ⟨column, rfl⟩

theorem eq_pair_of_map {tokens : List Token} {first second : Word} (words : tokens.map Token.word = [first, second]) :
    ∃ column further, tokens = [⟨column, first⟩, ⟨further, second⟩] := by
  obtain ⟨⟨column, _⟩, rest, rfl, rfl, last⟩ := List.map_eq_cons_iff.mp words
  obtain ⟨further, rfl⟩ := eq_singleton_of_map last
  exact ⟨column, further, rfl⟩

/-- An instruction is read from the words that were written for it. -/
theorem readInstruction_operandWords (column : Nat) (instruction : Instruction) {operands : List Token}
    (words : operands.map Token.word = operandWords instruction) :
    readInstruction column instruction.opcode operands = .ok (instruction.mapNumber reread) := by
  cases instruction with
  | label name | jumpTo name | jumpIfFalse name | callFunction name | pushVariable name | storeVariable name =>
    obtain ⟨own, rfl⟩ := eq_singleton_of_map words
    simp [Instruction.opcode, readInstruction, Token.text, Instruction.mapNumber]
  | runLine index | pushString index =>
    obtain ⟨own, rfl⟩ := eq_singleton_of_map words
    simp only [Instruction.opcode, readInstruction, readIndex_optionWord]
    rfl
  | runCommand text =>
    obtain ⟨own, rfl⟩ := eq_singleton_of_map words
    rfl
  | addOption text destination =>
    obtain ⟨own, further, rfl⟩ := eq_pair_of_map words
    simp only [Instruction.opcode, readInstruction, readOptionText_optionWord, Token.text, text_nameWord]
    rfl
  | pushNumber value =>
    obtain ⟨own, rfl⟩ := eq_singleton_of_map words
    simp only [Instruction.opcode, readInstruction, readNumber_text]
    rfl
  | pushBool value =>
    obtain ⟨own, rfl⟩ := eq_singleton_of_map words
    cases value <;> rfl
  | jump | showOptions | pushNull | pop | stop | runNode =>
    rw [List.map_eq_nil_iff.mp words]
    rfl

end Operands

section Header

theorem dropColon_append (name : String) : dropColon (String.ofList (name.toList ++ [':'])) = name := by
  unfold dropColon
  rw [String.toList_ofList, List.getLast?_concat, if_pos rfl, List.dropLast_concat, String.ofList_toList]

/-- The words behind the directive of a node header: the colon is glued to a name that stands bare. -/
def headerWords (name : String) : List Word :=
  if isPlainName name.toList then [.bare (String.ofList (name.toList ++ [':']))] else [.quoted name, .bare ":"]

theorem spells_header (name : String) :
    Spells ("node ".toList ++ writeName name ++ [':']) (.bare "node" :: headerWords name) := by
  have directive : Writes "node".toList (.bare "node") := writes_bare (isBareWord_of_check (by decide))
  have colon : Writes [':'] (.bare ":") := writes_bare (isBareWord_of_check (by decide))
  show Spells ("node".toList ++ ' ' :: (writeName name ++ [':'])) _
  refine directive _ _ (endsWord_cons (by decide)) (Spells.blank (by decide) ?_)
  unfold headerWords writeName
  split
  next plain =>
    obtain ⟨some, hash, bare⟩ := (isPlainName_iff.mp plain).1
    have glued : IsBareWord (name.toList ++ [':']) := by
      refine ⟨by simp, ?_, ?_⟩
      · rw [List.head?_append_of_ne_nil _ some]
        exact hash
      · intro c member
        rcases List.mem_append.mp member with inName | last
        · exact bare c inName
        · rw [List.mem_singleton.mp last]
          decide
    have alone := writes_bare glued [] [] endsWord_nil spells_nil
    rwa [List.append_nil] at alone
  next => exact spells_quote name (colon [] [] endsWord_nil spells_nil)

theorem headerName?_headerWords {name : String} {operands : List Token}
    (words : operands.map Token.word = headerWords name) : headerName? operands = some name := by
  unfold headerWords at words
  split at words
  · obtain ⟨column, rfl⟩ := eq_singleton_of_map words
    exact congrArg some (dropColon_append name)
  · obtain ⟨column, further, rfl⟩ := eq_pair_of_map words
    rfl

end Header

namespace Draft

/-- The lines turn the one draft into the other. -/
inductive Extends : Draft → List (List Char) → Draft → Prop
  | nil (draft : Draft) : Extends draft [] draft
  | cons {draft next last : Draft} {line : List Char} {lines : List (List Char)} (added : draft.addLine line = .ok next)
      (others : Extends next lines last) : Extends draft (line :: lines) last

section Extends

variable {draft next last : Draft} {line : List Char} {lines : List (List Char)}

theorem addLines_eq_ok {number : Nat} : draft.addLines number lines = .ok last ↔ draft.Extends lines last := by
  induction lines generalizing number draft with
  | nil =>
    constructor
    · rintro ⟨⟩
      exact .nil _
    · rintro ⟨⟩
      rfl
  | cons line lines ih =>
    rw [addLines]
    cases added : draft.addLine line with
    | error defect =>
      constructor
      · rintro ⟨⟩
      · rintro (_ | ⟨other, _⟩)
        cases added.symm.trans other
    | ok next =>
      constructor
      · exact fun read => .cons added (ih.mp read)
      · rintro (_ | ⟨other, others⟩)
        cases added.symm.trans other
        exact ih.mpr others

theorem Extends.append {back : List (List Char)} (start : draft.Extends lines next) (finish : next.Extends back last) :
    draft.Extends (lines ++ back) last := by
  induction start with
  | nil => exact finish
  | cons added _ ih => exact .cons added (ih finish)

/-- A line changes the draft as its words do. -/
theorem extends_words {words : List Word} (spelled : Spells line words)
    (read : ∀ tokens : List Token, tokens.map Token.word = words → draft.addWords tokens = .ok next) :
    draft.Extends [line] next := by
  obtain ⟨tokens, tokenized, same⟩ := spelled 1
  refine .cons ?_ (.nil next)
  unfold addLine
  rw [tokenized]
  exact read tokens same

end Extends

section Lines

variable {name : String} {strings : List String} {nodes : List Node}

/-- A line of a directive and its operands, behind some spaces, changes the draft as they do. -/
theorem extends_directive {draft next : Draft} (spaces : Nat) (directive : String) {operands : List (List Char)}
    {words : List Word} (plain : IsBareWord directive.toList) (written : List.Forall₂ Writes operands words)
    (read : ∀ column (tokens : List Token), tokens.map Token.word = words →
      draft.addWords (⟨column, .bare directive⟩ :: tokens) = .ok next) :
    draft.Extends [List.replicate spaces ' ' ++ joinWords (directive.toList :: operands)] next := by
  have spelled := spells_joinWords (writes_bare plain) written endsWord_nil spells_nil
  rw [List.append_nil, List.append_nil, String.ofList_toList] at spelled
  apply extends_words (spelled.blanks spaces)
  intro tokens same
  obtain ⟨⟨column, _⟩, others, rfl, rfl, behind⟩ := List.map_eq_cons_iff.mp same
  exact read column others behind

theorem extends_headLines (program : Program) :
    Draft.empty.Extends (headLines program) ⟨program.name, [], []⟩ := by
  have comment : ∀ rest, Draft.empty.Extends ['#' :: rest] .empty := fun rest =>
    extends_words (spells_comment rest) fun tokens words => by
      rw [List.map_eq_nil_iff.mp words]
      rfl
  have named : Draft.empty.Extends [joinWords ["program".toList, Text.quote program.name.toList]]
      ⟨program.name, [], []⟩ :=
    extends_directive 0 "program" (isBareWord_of_check (by decide)) (.cons (writes_quote program.name) .nil)
      fun column tokens words => by
        obtain ⟨own, rfl⟩ := eq_singleton_of_map words
        rfl
  have counts : ∃ rest, s!"# {program.nodes.length} node(s), {program.strings.length} string(s)".toList = '#' :: rest :=
    ⟨_, by simp only [String.toList_append]; rfl⟩
  obtain ⟨rest, counts⟩ := counts
  unfold headLines
  rw [counts]
  exact (comment _).append ((comment _).append ((comment _).append named))

theorem extends_stringLine (text : String) (fits : strings.length < 2 ^ 64) :
    Draft.Extends ⟨name, strings, nodes⟩ [stringLine text strings.length] ⟨name, strings ++ [text], nodes⟩ := by
  refine extends_directive 0 "string" (isBareWord_of_check (by decide))
    (.cons (writes_bare (isBareWord_digits strings.length)) (.cons (writes_quote text) .nil))
    fun column tokens words => ?_
  obtain ⟨own, further, rfl⟩ := eq_pair_of_map words
  have size : (UInt64.ofNat strings.length).toNat = strings.length := by
    rw [UInt64.toNat_ofNat']
    exact Nat.mod_eq_of_lt fits
  show (do
    let index ← readIndex ⟨own, .bare (String.ofList (Text.digits strings.length))⟩
    if index.toNat = strings.length then .ok (⟨name, strings ++ [text], nodes⟩ : Draft)
    else .error (column, .stringOrder index strings.length)) = _
  rw [readIndex_digits own fits]
  exact if_pos size

theorem extends_strings (texts : List String) (fits : strings.length + texts.length ≤ 2 ^ 64) :
    Draft.Extends ⟨name, strings, nodes⟩
      ((texts.zipIdx strings.length).map fun (text, index) => stringLine text index)
      ⟨name, strings ++ texts, nodes⟩ := by
  induction texts generalizing strings with
  | nil =>
    rw [List.append_nil]
    exact .nil _
  | cons text texts ih =>
    rw [List.length_cons] at fits
    have others := ih (show (strings ++ [text]).length + texts.length ≤ 2 ^ 64 by simp; omega)
    rw [List.append_assoc, List.length_append] at others
    exact (extends_stringLine text (by omega)).append others

/-- A header opens a node of a name that is not empty and not taken. -/
theorem extends_header {title : String} (some : title ≠ "") (fresh : ∀ other ∈ nodes, other.name ≠ title) :
    Draft.Extends ⟨name, strings, nodes⟩ ["node ".toList ++ writeName title ++ [':']]
      ⟨name, strings, ⟨title, [], []⟩ :: nodes⟩ := by
  apply extends_words (spells_header title)
  intro tokens same
  obtain ⟨⟨column, _⟩, operands, rfl, rfl, words⟩ := List.map_eq_cons_iff.mp same
  have unused : nodes.any (·.name = title) = false := by simpa using fresh
  show (do
    let found ← readNodeName column operands
    if nodes.any (·.name = found) then .error (column, .duplicateNode ⟨found⟩)
    else .ok (⟨name, strings, ⟨found, [], []⟩ :: nodes⟩ : Draft)) = _
  unfold readNodeName
  rw [headerName?_headerWords words]
  dsimp only
  rw [if_neg some]
  show (if nodes.any (·.name = title) then _ else _) = _
  rw [if_neg (by simp [unused])]

theorem extends_tags (node : Node) (tags : List String) :
    Draft.Extends ⟨name, strings, node :: nodes⟩ [joinWords ("    tags".toList :: tags.map writeName)]
      ⟨name, strings, { node with tags := node.tags ++ tags } :: nodes⟩ := by
  have written : List.Forall₂ Writes (tags.map writeName) (tags.map nameWord) := by
    induction tags with
    | nil => exact .nil
    | cons tag tags ih => exact .cons (writes_name tag) ih
  have layout : joinWords ("    tags".toList :: tags.map writeName) =
      List.replicate 4 ' ' ++ joinWords ("tags".toList :: tags.map writeName) := by
    rw [joinWords_cons, joinWords_cons]
    rfl
  rw [layout]
  apply extends_directive 4 "tags" (isBareWord_of_check (by decide)) written
  intro column tokens words
  have texts : tokens.map Token.text = tags := by
    have same := congrArg (List.map Word.text) words
    rw [List.map_map, List.map_map] at same
    calc
      _ = tags.map (Word.text ∘ nameWord) := same
      _ = tags.map fun tag => tag := List.map_congr_left fun tag _ => text_nameWord tag
      _ = tags := List.map_id' tags
  show Except.ok (⟨name, strings, { node with tags := node.tags ++ tokens.map Token.text } :: nodes⟩ : Draft) = _
  rw [texts]

theorem extends_instructionLine (program : Program) (position : Nat) (node : Node) (instruction : Instruction) :
    Draft.Extends ⟨name, strings, node :: nodes⟩ [instructionLine program position instruction]
      ⟨name, strings, { node with instructions := node.instructions ++ [instruction.mapNumber reread] } :: nodes⟩ := by
  apply extends_words (spells_instructionLine program position instruction)
  intro tokens same
  obtain ⟨⟨column, _⟩, operands, rfl, rfl, words⟩ := List.map_eq_cons_iff.mp same
  have noDirective : ∀ opcode : Opcode, opcode.mnemonic ≠ "program" ∧ opcode.mnemonic ≠ "string" ∧
      opcode.mnemonic ≠ "node" ∧ opcode.mnemonic ≠ "tags" := fun opcode => by cases opcode <;> decide
  obtain ⟨noProgram, noString, noNode, noTags⟩ := noDirective instruction.opcode
  unfold addWords Instruction.mnemonic
  dsimp only
  rw [if_neg noProgram, if_neg noString, if_neg noNode, if_neg noTags, Opcode.ofMnemonic?_mnemonic]
  dsimp only
  rw [readInstruction_operandWords column instruction words]
  rfl

theorem extends_instructions (program : Program) (node : Node) (instructions : List Instruction) (position : Nat) :
    Draft.Extends ⟨name, strings, node :: nodes⟩
      ((instructions.zipIdx position).map fun (instruction, position) => instructionLine program position instruction)
      ⟨name, strings, { node with instructions :=
        node.instructions ++ instructions.map (Instruction.mapNumber reread) } :: nodes⟩ := by
  induction instructions generalizing node position with
  | nil =>
    rw [List.map_nil, List.append_nil]
    exact .nil _
  | cons instruction instructions ih =>
    have others := ih { node with instructions := node.instructions ++ [instruction.mapNumber reread] } (position + 1)
    rw [List.append_assoc] at others
    exact (extends_instructionLine program position node instruction).append others

theorem extends_nodeLines (program : Program) {node : Node} (some : node.name ≠ "")
    (fresh : ∀ other ∈ nodes, other.name ≠ node.name) :
    Draft.Extends ⟨name, strings, nodes⟩ (nodeLines program node)
      ⟨name, strings, node.mapInstructions (Instruction.mapNumber reread) :: nodes⟩ := by
  have empty : Draft.Extends ⟨name, strings, nodes⟩ [[]] ⟨name, strings, nodes⟩ :=
    extends_words spells_nil fun tokens words => by
      rw [List.map_eq_nil_iff.mp words]
      rfl
  have tagged : Draft.Extends ⟨name, strings, ⟨node.name, [], []⟩ :: nodes⟩
      (if node.tags.isEmpty then [] else [joinWords ("    tags".toList :: node.tags.map writeName)])
      ⟨name, strings, ⟨node.name, node.tags, []⟩ :: nodes⟩ := by
    split
    next none =>
      rw [List.isEmpty_iff.mp none]
      exact .nil _
    next => exact extends_tags ⟨node.name, [], []⟩ node.tags
  exact empty.append ((extends_header some fresh).append
    (tagged.append (extends_instructions program ⟨node.name, node.tags, []⟩ node.instructions 0)))

/-- The lines of nodes in order add those nodes. -/
theorem extends_nodes (program : Program) (later : List Node) (some : ∀ node ∈ later, node.name ≠ "")
    (apart : (later.map Node.name).Nodup) (fresh : ∀ node ∈ later, ∀ other ∈ nodes, other.name ≠ node.name) :
    Draft.Extends ⟨name, strings, nodes⟩ (later.flatMap (nodeLines program))
      ⟨name, strings, (later.map (Node.mapInstructions (Instruction.mapNumber reread))).reverse ++ nodes⟩ := by
  -- The nodes that were read lie on the draft with the latest in front, so each step puts one more there.
  induction later generalizing nodes with
  | nil => exact .nil _
  | cons node later ih =>
    rw [List.map_cons, List.nodup_cons] at apart
    have first : Draft.Extends ⟨name, strings, nodes⟩ _ _ :=
      extends_nodeLines program (some node List.mem_cons_self) (fresh node List.mem_cons_self)
    have others : Draft.Extends ⟨name, strings, node.mapInstructions (Instruction.mapNumber reread) :: nodes⟩ _ _ :=
      ih (fun other member => some other (List.mem_cons_of_mem node member)) apart.2 ?_
    · rw [List.map_cons, List.reverse_cons, List.append_assoc]
      exact first.append others
    · intro other member before among
      rcases List.mem_cons.mp among with rfl | earlier
      · exact fun same => apart.1 (List.mem_map.mpr ⟨other, member, same.symm⟩)
      · exact fresh other (List.mem_cons_of_mem node member) before earlier

end Lines

end Draft

end Source

end Dialogue
