import Dialogue.Proofs.Source.FirstWord
import Dialogue.Proofs.Source.Parts

/-!
The layout of a source text is free. What a text declares, its name and its strings, and the nodes that it opens do not
look at each other; so the declarations may stand in front, the nodes in any order, and blank lines and comments
wherever they like.
-/

namespace Dialogue.Source

section Rows

def begins (directive : String) (line : List Char) : Bool := firstWord line = directive.toList

/-- Whether the line names the program or adds to its strings. -/
def declares (line : List Char) : Bool := begins "program" line || begins "string" line

def opensNode (line : List Char) : Bool := begins "node" line

/-- The lines in front of the first node, and the blocks behind them: the line that opens a node with all lines up to
the next such line. -/
def blocksOf : List (List Char) → List (List Char) × List (List (List Char))
  | [] => ([], [])
  | line :: rest =>
    if opensNode line then ([], (line :: (blocksOf rest).1) :: (blocksOf rest).2)
    else (line :: (blocksOf rest).1, (blocksOf rest).2)

/-- Another layout of the same lines: the declarations come first, in their old order, and then the blocks of the nodes
in any order. Lines that are blank or comments may have come and gone anywhere. -/
def Rearranged (lines others : List (List Char)) : Prop :=
  ∃ order : List (List (List Char)), order.Perm (blocksOf (lines.filter (!declares ·))).2 ∧
    others.filter (!isIdle ·) =
      (lines.filter declares ++ (blocksOf (lines.filter (!declares ·))).1 ++ order.flatten).filter (!isIdle ·)

/-- The text has these lines, apart from blanks at their ends. -/
def HasLines (text : String) (lines : List (List Char)) : Prop := List.Forall₂ EndsAlike lines (Text.lines text.toList)

variable {rows : List (List Char)}

theorem flatten_blocksOf (rows : List (List Char)) : (blocksOf rows).1 ++ (blocksOf rows).2.flatten = rows := by
  induction rows with
  | nil => rfl
  | cons line rest ih =>
    unfold blocksOf
    split
    · rw [List.nil_append, List.flatten_cons, List.cons_append, ih]
    · rw [List.cons_append, ih]

theorem blocksOf_front : ∀ line ∈ (blocksOf rows).1, opensNode line = false := by
  induction rows with
  | nil => simp [blocksOf]
  | cons line rest ih =>
    unfold blocksOf
    split
    · simp
    next plain => exact List.forall_mem_cons.mpr ⟨Bool.eq_false_iff.mpr plain, ih⟩

theorem blocksOf_headed :
    ∀ block ∈ (blocksOf rows).2, ∃ header inner, block = header :: inner ∧ opensNode header = true ∧
      ∀ line ∈ inner, opensNode line = false := by
  induction rows with
  | nil => simp [blocksOf]
  | cons line rest ih =>
    unfold blocksOf
    split
    next opens => exact List.forall_mem_cons.mpr ⟨⟨line, (blocksOf rest).1, rfl, opens, blocksOf_front⟩, ih⟩
    · exact ih

/-- A line is told from the next one by its feed, but for a carriage return in front of that. -/
theorem lines_append_feed {row : List Char} (flat : '\n' ∉ row) (rest : List Char) :
    ∃ line, Text.lines (row ++ '\n' :: rest) = line :: Text.lines rest ∧ EndsAlike row line := by
  unfold Text.lines
  induction row with
  | nil => exact ⟨[], by rw [List.nil_append, Text.linesOf, if_pos rfl], .refl []⟩
  | cons c row ih =>
    rw [List.mem_cons, not_or] at flat
    obtain ⟨line, found, alike⟩ := ih flat.2
    rw [List.cons_append, Text.linesOf, if_neg (Ne.symm flat.1)]
    split
    next ends =>
      -- Only a return right in front of the feed belongs to the ending, and it is a blank.
      cases row with
      | nil =>
        have blank : Text.isBlank c = true := by rw [ends.1]; rfl
        exact ⟨line, found, endsAlike_of_blanks (List.forall_mem_singleton.mpr blank) (blanks_of_endsAlike alike)⟩
      | cons d row => exact absurd (List.mem_cons.mpr (.inl (Option.some.inj ends.2).symm)) flat.2
    next => exact ⟨c :: line, by rw [found], alike.cons c⟩

theorem hasLines_flatMap (flat : ∀ row ∈ rows, '\n' ∉ row) :
    HasLines (String.ofList (rows.flatMap (· ++ ['\n']))) rows := by
  unfold HasLines
  rw [String.toList_ofList]
  induction rows with
  | nil => exact .nil
  | cons row rows ih =>
    obtain ⟨first, others⟩ := List.forall_mem_cons.mp flat
    obtain ⟨line, found, alike⟩ := lines_append_feed first (rows.flatMap (· ++ ['\n']))
    rw [List.flatMap_cons, List.append_assoc, List.singleton_append, found]
    exact .cons alike (ih others)

end Rows

section Statements

variable {line other : List Char} {statement : Statement}

/-- What the line states, if it states anything. -/
def stated? (line : List Char) : Option Statement :=
  match readLine line with
  | .ok (some (_, statement)) => some statement
  | _ => none

/-- Nothing is wrong with the line by itself. -/
def Reads (line : List Char) : Prop := ∃ found, readLine line = .ok found

/-- The directive tells what kind of statement a line makes. -/
theorem kind_of_readStatement {column : Nat} {head : String} {operands : List Token}
    (read : readStatement column head operands = .ok statement) :
    statement.declares = (head = "program" || head = "string") ∧ statement.opensNode = decide (head = "node") := by
  unfold readStatement at read
  split at read
  next isProgram =>
    split at read
    · cases read
      simp [isProgram, Statement.declares, Statement.opensNode]
    · cases read
  next noProgram =>
  split at read
  next isString =>
    split at read
    · obtain ⟨index, _, rfl⟩ := eq_ok_of_map read
      simp [isString, Statement.declares, Statement.opensNode]
    · cases read
  next noString =>
  split at read
  next isNode =>
    obtain ⟨name, _, rfl⟩ := eq_ok_of_map read
    simp [isNode, Statement.declares, Statement.opensNode]
  next noNode =>
  split at read
  · cases read
    simp [noProgram, noString, noNode, Statement.declares, Statement.opensNode]
  split at read
  · cases read
  · obtain ⟨instruction, _, rfl⟩ := eq_ok_of_map read
    simp [noProgram, noString, noNode, Statement.declares, Statement.opensNode]

theorem kind_of_stated? (states : stated? line = some statement) :
    declares line = statement.declares ∧ opensNode line = statement.opensNode := by
  unfold stated? at states
  split at states
  next column found read =>
    cases states
    unfold readLine at read
    split at read
    next => cases read
    next => cases read
    next => cases read
    next own head operands tokenized =>
      obtain ⟨inner, readInner, same⟩ := eq_ok_of_map read
      cases same
      obtain ⟨kind, opens⟩ := kind_of_readStatement readInner
      simp only [declares, opensNode, begins, firstWord_of_tokenize tokenized, String.toList_inj, kind, opens,
        and_self]
  next => cases states

/-- A line that reads states something, unless it is idle. -/
theorem stated?_eq_none (reads : Reads line) : stated? line = none ↔ isIdle line = true := by
  have idle : tokenize 1 line = .ok [] ↔ isIdle line = true := tokenize_eq_nil_iff
  obtain ⟨found, read⟩ := reads
  rw [← idle]
  unfold stated?
  rw [read]
  unfold readLine at read
  split at read
  next => cases read
  next empty =>
    cases read
    simp [empty]
  next => cases read
  next own head operands tokenized =>
    obtain ⟨statement, _, rfl⟩ := eq_ok_of_map read
    simp [tokenized]

theorem reads_of_idle (idle : isIdle line = true) : readLine line = .ok none := by
  unfold readLine
  rw [tokenize_eq_nil_iff.mpr idle]

/-- An idle line has no directive. -/
theorem opensNode_of_idle (idle : isIdle line = true) : opensNode line = false := by
  unfold isIdle at idle
  unfold opensNode begins firstWord
  cases rest : line.dropWhile Text.isBlank with
  | nil => rfl
  | cons c words =>
    rw [rest] at idle
    have hash : c = '#' := by simpa using idle
    rw [hash, List.takeWhile_cons_of_pos (by decide)]
    simp

theorem Reads.alike (reads : Reads line) (alike : EndsAlike line other) : readLine other = readLine line := by
  obtain ⟨core, ending, others, rfl, rfl, blank, blankToo⟩ := alike
  obtain ⟨found, read⟩ := reads
  unfold readLine at read ⊢
  cases tokenized : tokenize 1 (core ++ ending) with
  | error misspelling =>
    rw [tokenized] at read
    cases read
  | ok tokens =>
    rw [(tokenize_append_blanks blankToo 1).mpr ((tokenize_append_blanks blank 1).mp tokenized)]

end Statements

section Reading

variable {draft last : Draft} {rows : List (List Char)}

theorem Draft.addLine_iff {row : List Char} : draft.addLine row = .ok last ↔
    Reads row ∧ draft.acceptAll (stated? row).toList = .ok last := by
  rw [addLine_eq_ok]
  unfold Reads stated?
  rcases readLine row with error | _ | ⟨column, statement⟩
  · simp
  · simp [acceptAll_nil, eq_comm]
  · simp [acceptAll_cons, acceptAll_nil]

theorem filterMap_cons_toList {α β : Type} (f : α → Option β) (item : α) (items : List α) :
    (item :: items).filterMap f = (f item).toList ++ items.filterMap f := by
  rw [List.filterMap_cons]
  cases f item <;> rfl

/-- Lines that read change a draft as their statements do, one after the other. -/
theorem Draft.extends_iff :
    draft.Extends rows last ↔ (∀ row ∈ rows, Reads row) ∧ draft.acceptAll (rows.filterMap stated?) = .ok last := by
  induction rows generalizing draft with
  | nil =>
    constructor
    · rintro ⟨⟩
      exact ⟨by simp, rfl⟩
    · rintro ⟨_, ⟨⟩⟩
      exact .nil _
  | cons row rows ih =>
    rw [List.forall_mem_cons, filterMap_cons_toList, acceptAll_append]
    constructor
    · rintro (_ | ⟨added, others⟩)
      obtain ⟨reads, accepted⟩ := addLine_iff.mp added
      obtain ⟨all, rest⟩ := ih.mp others
      exact ⟨⟨reads, all⟩, _, accepted, rest⟩
    · rintro ⟨⟨reads, all⟩, next, accepted, rest⟩
      exact .cons (addLine_iff.mpr ⟨reads, accepted⟩) (ih.mpr ⟨all, rest⟩)

end Reading

section Moving

variable {lines others : List (List Char)}

theorem filterMap_filter_eq {α β : Type} {f : α → Option β} {p : α → Bool} {q : β → Bool} {items : List α}
    (same : ∀ item value, f item = some value → p item = q value) :
    (items.filter p).filterMap f = (items.filterMap f).filter q := by
  rw [List.filterMap_filter, List.filter_filterMap]
  congr 1
  funext item
  cases found : f item with
  | none => simp
  | some value => simp [same item value found, Option.filter]

/-- Idle lines state nothing. -/
theorem filterMap_filter_isIdle (lines : List (List Char)) :
    (lines.filter (!isIdle ·)).filterMap stated? = lines.filterMap stated? := by
  rw [List.filterMap_filter]
  congr 1
  funext line
  cases idle : isIdle line with
  | false => rfl
  | true => simp [stated?, reads_of_idle idle]

/-- Blanks at the ends of lines tell nothing. -/
theorem reads_of_endsAlike (alike : List.Forall₂ EndsAlike lines others) (reads : ∀ line ∈ lines, Reads line) :
    (∀ line ∈ others, Reads line) ∧ others.filterMap stated? = lines.filterMap stated? := by
  induction alike with
  | nil => exact ⟨by simp, rfl⟩
  | @cons line other lines others alike _ ih =>
    obtain ⟨first, rest⟩ := List.forall_mem_cons.mp reads
    obtain ⟨all, same⟩ := ih rest
    have read := first.alike alike
    refine ⟨List.forall_mem_cons.mpr ⟨?_, all⟩, ?_⟩
    · unfold Reads
      rw [read]
      exact first
    · rw [filterMap_cons_toList, filterMap_cons_toList, same]
      unfold stated?
      rw [read]

/-- What lines without declarations and without a new node state is about the latest node. -/
theorem edits_of_stated? (plain : ∀ line ∈ lines, declares line = false ∧ opensNode line = false) :
    ∀ statement ∈ lines.filterMap stated?, statement.edits = true := by
  intro statement member
  obtain ⟨line, among, states⟩ := List.mem_filterMap.mp member
  obtain ⟨declaration, opens⟩ := kind_of_stated? states
  obtain ⟨noDeclaration, noNode⟩ := plain line among
  simp [Statement.edits, ← declaration, ← opens, noDeclaration, noNode]

/-- The lines of a block state a block. -/
theorem isBlock_filterMap {header : List Char} {inner : List (List Char)} (reads : Reads header)
    (opens : opensNode header = true) (plain : ∀ line ∈ inner, declares line = false ∧ opensNode line = false) :
    Statement.IsBlock ((header :: inner).filterMap stated?) := by
  cases states : stated? header with
  | none =>
    have idle := opensNode_of_idle ((stated?_eq_none reads).mp states)
    rw [opens] at idle
    cases idle
  | some statement =>
    have kind := (kind_of_stated? states).2
    rw [opens] at kind
    cases statement with
    | node name =>
      refine ⟨name, inner.filterMap stated?, ?_, edits_of_stated? plain⟩
      rw [filterMap_cons_toList, states]
      rfl
    | _ => cases kind

/-- What lines state when they have been rearranged, and that they still read. -/
theorem Rearranged.statements (moved : Rearranged lines others) (reads : ∀ line ∈ lines, Reads line) :
    (∀ line ∈ others, Reads line) ∧
      ∃ (front : List Statement) (blocks order : List (List Statement)),
        (lines.filterMap stated?).filter (!·.declares) = front ++ blocks.flatten ∧
        (∀ statement ∈ front, statement.edits = true) ∧ (∀ block ∈ blocks, Statement.IsBlock block) ∧
        order.Perm blocks ∧
        others.filterMap stated? = (lines.filterMap stated?).filter Statement.declares ++ front ++ order.flatten := by
  obtain ⟨order, same, contents⟩ := moved
  generalize body : lines.filter (!declares ·) = rest at same contents
  have inside : ∀ line ∈ rest, line ∈ lines ∧ declares line = false := fun line member => by
    rw [← body] at member
    simpa using List.mem_filter.mp member
  have split := flatten_blocksOf rest
  have front : ∀ line ∈ (blocksOf rest).1, line ∈ rest := fun line member =>
    split ▸ List.mem_append_left _ member
  have blocks : ∀ block ∈ (blocksOf rest).2, ∀ line ∈ block, line ∈ rest := fun block member line among =>
    split ▸ List.mem_append_right _ (List.mem_flatten.mpr ⟨block, member, among⟩)
  refine ⟨fun line member => ?_, (blocksOf rest).1.filterMap stated?, (blocksOf rest).2.map (·.filterMap stated?),
    order.map (·.filterMap stated?), ?_, ?_, ?_, same.map _, ?_⟩
  · cases idle : isIdle line with
    | true => exact ⟨none, reads_of_idle idle⟩
    | false =>
      have kept : line ∈ others.filter (!isIdle ·) := List.mem_filter.mpr ⟨member, by simp [idle]⟩
      rw [contents] at kept
      rcases List.mem_append.mp (List.mem_filter.mp kept).1 with early | late
      · rcases List.mem_append.mp early with declaration | before
        · exact reads line (List.mem_filter.mp declaration).1
        · exact reads line (inside line (front line before)).1
      · obtain ⟨block, among, within⟩ := List.mem_flatten.mp late
        exact reads line (inside line (blocks block (same.mem_iff.mp among) line within)).1
  · calc
      _ = rest.filterMap stated? := by
        rw [← body]
        exact (filterMap_filter_eq fun line statement states => by rw [(kind_of_stated? states).1]).symm
      _ = ((blocksOf rest).1 ++ (blocksOf rest).2.flatten).filterMap stated? := by rw [split]
      _ = _ := by rw [List.filterMap_append, List.filterMap_flatten]
  · exact edits_of_stated? fun line member => ⟨(inside line (front line member)).2, blocksOf_front line member⟩
  · intro block member
    obtain ⟨rows, among, rfl⟩ := List.mem_map.mp member
    obtain ⟨header, inner, rfl, opens, plain⟩ := blocksOf_headed rows among
    have within := blocks _ among
    refine isBlock_filterMap (reads header (inside header (within header List.mem_cons_self)).1) opens ?_
    exact fun line later => ⟨(inside line (within line (List.mem_cons_of_mem _ later))).2, plain line later⟩
  · calc
      _ = (others.filter (!isIdle ·)).filterMap stated? := (filterMap_filter_isIdle others).symm
      _ = (lines.filter declares ++ (blocksOf rest).1 ++ order.flatten).filterMap stated? := by
        rw [contents, filterMap_filter_isIdle]
      _ = _ := by
        rw [List.filterMap_append, List.filterMap_append, List.filterMap_flatten,
          filterMap_filter_eq fun line statement states => (kind_of_stated? states).1]

end Moving

/-- The layout of a source text does not matter: with the declarations in front, the nodes in any order, and blank
lines and comments wherever they like, its lines make the same program. Nor do blanks at the ends of the lines matter, so
that every line may end in a feed, and the lines can be written one after the other. -/
theorem assemble_rearranged {source : String} {program : Program} (assembled : assemble source = .ok program)
    {lines : List (List Char)} (moved : Rearranged (Text.lines source.toList) lines) :
    (∀ other, HasLines other lines → assemble other = .ok program) ∧
      ((∀ line ∈ lines, '\n' ∉ line) → HasLines (String.ofList (lines.flatMap (· ++ ['\n']))) lines) := by
  obtain ⟨draft, grown, finished⟩ := assemble_eq_ok.mp assembled
  obtain ⟨reads, accepted⟩ := Draft.extends_iff.mp grown
  obtain ⟨readsToo, front, blocks, order, parts, edits, each, same, states⟩ := moved.statements reads
  obtain ⟨last, acceptedToo, finishedToo⟩ := Draft.finish_of_perm accepted finished parts edits each same
  refine ⟨fun other has => ?_, hasLines_flatMap⟩
  obtain ⟨all, told⟩ := reads_of_endsAlike has readsToo
  rw [← states, ← told] at acceptedToo
  exact assemble_eq_ok.mpr ⟨last, Draft.extends_iff.mpr ⟨all, acceptedToo⟩, finishedToo⟩

/-- Declarations in the middle of nodes, which are not in the order of their names. -/
def scattered : String :=
  "# a walk\nnode \"Pond\" :\r\n  tags wet\nstring 0 \"Quack.\" # says the duck\n  RunLine 0\n\nnode Bank:\n  RunLine 1\n" ++
    "program\"walk\"\n  RunCommand \"#node\"\nstring 1 \"Sit.\"\r"

/-- The lines of the scattered text in a better layout. The return at the end of its last line is now in the middle. -/
def gathered : List (List Char) :=
  ["string 0 \"Quack.\" # says the duck", "program\"walk\"", "string 1 \"Sit.\"\r", "#node", "node Bank:", "  RunLine 1",
    "  RunCommand \"#node\"", "\t", "node \"Pond\" :", "  tags wet", "  RunLine 0"].map String.toList

theorem assemble_rearranged_scattered :
    ∃ program, assemble scattered = .ok program ∧ program.nodes.map Node.name = ["Bank", "Pond"] ∧
      Rearranged (Text.lines scattered.toList) gathered ∧ (∀ line ∈ gathered, '\n' ∉ line) ∧
      assemble (String.ofList (gathered.flatMap (· ++ ['\n']))) = .ok program := by
  have names : (assemble scattered).toOption.map (·.nodes.map Node.name) = some ["Bank", "Pond"] := by decide +kernel
  have moved : Rearranged (Text.lines scattered.toList) gathered :=
    ⟨_, List.reverse_perm _, by decide +kernel⟩
  have flat : ∀ line ∈ gathered, '\n' ∉ line := by decide
  cases assembled : assemble scattered with
  | error error =>
    rw [assembled] at names
    cases names
  | ok program =>
    rw [assembled] at names
    obtain ⟨same, written⟩ := assemble_rearranged assembled moved
    exact ⟨program, rfl, Option.some.inj names, moved, flat, same _ (written flat)⟩

end Dialogue.Source
