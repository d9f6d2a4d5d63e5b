import Dialogue.Source.Assembly

/-!
A line is read in two steps. What it states is told by its words alone; whether that fits, and what it adds, is told by
the draft. A draft refuses a statement as a whole, so what is wrong then is the directive in front.
-/

namespace Dialogue.Source

/-- What one line states. -/
inductive Statement where
  | program (name : String)
  | string (index : UInt64) (text : String)
  | node (name : String)
  | tags (tags : List String)
  | instruction (instruction : Instruction)
deriving DecidableEq

/-- What a directive or a mnemonic in the given column states with its operands. -/
def readStatement (column : Nat) (head : String) (operands : List Token) : Located Statement :=
  if head = "program" then
    match operands with
    | [name] => .ok (.program name.text)
    | _ => .error (column, .programOperands)
  else if head = "string" then
    match operands with
    | [index, text] => (readIndex index).map (.string · text.text)
    | _ => .error (column, .stringOperands)
  else if head = "node" then (readNodeName column operands).map .node
  else if head = "tags" then .ok (.tags (operands.map Token.text))
  else
    match Opcode.ofMnemonic? head with
    | none => .error (column, .unknownInstruction head)
    | some opcode => (readInstruction column opcode operands).map .instruction

/-- What a line states and in which column it begins to, if it has any words. -/
def readLine (line : List Char) : Located (Option (Nat × Statement)) :=
  match tokenize 1 line with
  | .error (column, misspelling) => .error (column, .misspelled misspelling)
  | .ok [] => .ok none
  | .ok (⟨column, .quoted _⟩ :: _) => .error (column, .quotedHead)
  | .ok (⟨column, .bare head⟩ :: operands) =>
    (readStatement column head operands).map fun statement => some (column, statement)

section Found

variable {α β ε : Type} {found : Except ε α}

theorem eq_ok_of_map {f : α → β} {value : β} (mapped : found.map f = .ok value) :
    ∃ inner, found = .ok inner ∧ f inner = value := by
  cases found with
  | error => cases mapped
  | ok inner => exact ⟨inner, rfl, Except.ok.inj mapped⟩

theorem eq_ok_of_bind {continued : α → Except ε β} {result : β} (bound : (found >>= continued) = .ok result) :
    ∃ value, found = .ok value ∧ continued value = .ok result := by
  cases found with
  | error => cases bound
  | ok value => exact ⟨value, rfl, bound⟩

end Found

/-- A node is only stated with a name that its header has. -/
theorem readNodeName_of_readStatement {column : Nat} {head name : String} {operands : List Token}
    (read : readStatement column head operands = .ok (.node name)) : readNodeName column operands = .ok name := by
  unfold readStatement at read
  split at read
  · split at read <;> cases read
  split at read
  · split at read
    · obtain ⟨index, _, same⟩ := eq_ok_of_map read
      cases same
    · cases read
  split at read
  · obtain ⟨found, readName, same⟩ := eq_ok_of_map read
    cases same
    exact readName
  split at read
  · cases read
  split at read
  · cases read
  · obtain ⟨instruction, _, same⟩ := eq_ok_of_map read
    cases same

theorem ne_empty_of_readNodeName {column : Nat} {operands : List Token} {name : String}
    (read : readNodeName column operands = .ok name) : name ≠ "" := by
  unfold readNodeName at read
  split at read
  · cases read
  · split at read
    · cases read
    next some =>
      cases read
      exact some

theorem ne_empty_of_readLine {line : List Char} {column : Nat} {name : String}
    (read : readLine line = .ok (some (column, .node name))) : name ≠ "" := by
  unfold readLine at read
  split at read
  next => cases read
  next => cases read
  next => cases read
  next =>
    obtain ⟨statement, stated, same⟩ := eq_ok_of_map read
    cases same
    exact ne_empty_of_readNodeName (readNodeName_of_readStatement stated)

namespace Draft

/-- Changes the latest node. -/
def edit (draft : Draft) (change : Node → Node) : Except Defect Draft :=
  match draft.nodes with
  | [] => .error .outsideNode
  | node :: earlier => .ok { draft with nodes := change node :: earlier }

/-- What a statement adds to a draft, if it fits. -/
def accept (draft : Draft) : Statement → Except Defect Draft
  | .program name => .ok { draft with name }
  | .string index text =>
    if index.toNat = draft.strings.length then .ok { draft with strings := draft.strings ++ [text] }
    else .error (.stringOrder index draft.strings.length)
  | .node name =>
    if draft.nodes.any (·.name = name) then .error (.duplicateNode ⟨name⟩)
    else .ok { draft with nodes := ⟨name, [], []⟩ :: draft.nodes }
  | .tags tags => draft.edit fun node => { node with tags := node.tags ++ tags }
  | .instruction instruction =>
    draft.edit fun node => { node with instructions := node.instructions ++ [instruction] }

/-- A draft accepts the statement, or what is wrong is in the given column. -/
def acceptAt (draft : Draft) (column : Nat) (statement : Statement) : Located Draft :=
  (draft.accept statement).mapError (column, ·)

variable {draft next : Draft} {line : List Char} {column : Nat}

theorem editNode_eq (draft : Draft) (column : Nat) (change : Node → Node) :
    draft.editNode column change = (draft.edit change).mapError (column, ·) := by
  unfold editNode edit
  cases draft.nodes <;> rfl

/-- The words of a line change a draft as the statement does that they make. -/
theorem addWords_eq (draft : Draft) (column : Nat) (head : String) (operands : List Token) :
    draft.addWords (⟨column, .bare head⟩ :: operands) =
      (readStatement column head operands).bind (draft.acceptAt column) := by
  unfold addWords readStatement
  dsimp only
  -- One case for each directive, in the order in which the line is asked for them.
  by_cases isProgram : head = "program"
  · rw [if_pos isProgram, if_pos isProgram]
    rcases operands with _ | ⟨name, _ | _⟩ <;> rfl
  rw [if_neg isProgram, if_neg isProgram]
  by_cases isString : head = "string"
  · rw [if_pos isString, if_pos isString]
    rcases operands with _ | ⟨index, _ | ⟨text, _ | _⟩⟩
    case cons.cons.nil =>
      dsimp only
      cases readIndex index with
      | error => rfl
      | ok index =>
        show (if _ then _ else _) = Except.mapError _ (if _ then _ else _)
        split <;> rfl
    all_goals rfl
  rw [if_neg isString, if_neg isString]
  by_cases isNode : head = "node"
  · rw [if_pos isNode, if_pos isNode]
    cases readNodeName column operands with
    | error => rfl
    | ok name =>
      show (if _ then _ else _) = Except.mapError _ (if _ then _ else _)
      split <;> rfl
  rw [if_neg isNode, if_neg isNode]
  by_cases isTags : head = "tags"
  · rw [if_pos isTags, if_pos isTags]
    exact editNode_eq draft column _
  rw [if_neg isTags, if_neg isTags]
  cases Opcode.ofMnemonic? head with
  | none => rfl
  | some opcode =>
    dsimp only
    cases readInstruction column opcode operands with
    | error => rfl
    | ok instruction => exact editNode_eq draft column _

/-- A line without words adds nothing. -/
theorem addLine_eq (draft : Draft) (line : List Char) :
    draft.addLine line = (readLine line).bind fun
      | none => .ok draft
      | some (column, statement) => draft.acceptAt column statement := by
  unfold addLine readLine
  rcases tokenize 1 line with error | _ | ⟨⟨column, head | head⟩, operands⟩
  case ok.cons.bare =>
    dsimp only
    rw [addWords_eq]
    cases readStatement column head operands <;> rfl
  all_goals rfl

theorem acceptAt_eq_ok {statement : Statement} :
    draft.acceptAt column statement = .ok next ↔ draft.accept statement = .ok next := by
  unfold acceptAt
  cases draft.accept statement with
  | error defect => constructor <;> rintro ⟨⟩
  | ok other =>
    constructor
    all_goals
      rintro ⟨⟩
      rfl

theorem acceptAt_eq_error {own : Nat} {statement : Statement} {defect : Defect} :
    draft.acceptAt own statement = .error (column, defect) ↔
      own = column ∧ draft.accept statement = .error defect := by
  unfold acceptAt
  cases draft.accept statement with
  | error other =>
    constructor
    · rintro ⟨⟩
      exact ⟨rfl, rfl⟩
    · rintro ⟨rfl, ⟨⟩⟩
      rfl
  | ok other =>
    constructor
    · rintro ⟨⟩
    · rintro ⟨_, ⟨⟩⟩

/-- What a line can have done to a draft. -/
theorem addLine_eq_ok : draft.addLine line = .ok next ↔
    (readLine line = .ok none ∧ next = draft) ∨
      ∃ column statement, readLine line = .ok (some (column, statement)) ∧ draft.accept statement = .ok next := by
  rw [addLine_eq]
  rcases readLine line with error | _ | ⟨own, statement⟩
  · simp [Except.bind]
  · simp [Except.bind, eq_comm]
  · simp only [Except.bind, acceptAt_eq_ok]
    constructor
    · exact fun accepted => .inr ⟨own, statement, rfl, accepted⟩
    · rintro (⟨⟨⟩, _⟩ | ⟨_, _, ⟨⟩, accepted⟩)
      exact accepted

/-- What can be wrong with a line: it states nothing, or nothing that the draft accepts. -/
theorem addLine_eq_error {defect : Defect} : draft.addLine line = .error (column, defect) ↔
    readLine line = .error (column, defect) ∨
      ∃ statement, readLine line = .ok (some (column, statement)) ∧ draft.accept statement = .error defect := by
  rw [addLine_eq]
  rcases readLine line with error | _ | ⟨own, statement⟩
  · simp [Except.bind]
  · simp [Except.bind]
  · simp only [Except.bind, acceptAt_eq_error]
    constructor
    · rintro ⟨rfl, refused⟩
      exact .inr ⟨statement, rfl, refused⟩
    · rintro (⟨⟨⟩⟩ | ⟨_, ⟨⟩, refused⟩)
      exact ⟨rfl, refused⟩

section Accept

variable {statement : Statement}

/-- The names of the nodes so far, the latest first. -/
def names (draft : Draft) : List String := draft.nodes.map Node.name

theorem edit_eq_ok {change : Node → Node} (edited : draft.edit change = .ok next) :
    ∃ node earlier, draft.nodes = node :: earlier ∧ next = { draft with nodes := change node :: earlier } := by
  unfold edit at edited
  split at edited
  · cases edited
  next node earlier nodes =>
    cases edited
    exact ⟨node, earlier, nodes, rfl⟩

theorem edit_keeps {change : Node → Node} (edited : draft.edit change = .ok next)
    (keeps : ∀ node, (change node).name = node.name) : next.names = draft.names ∧ next.strings = draft.strings := by
  obtain ⟨node, earlier, nodes, rfl⟩ := edit_eq_ok edited
  refine ⟨?_, rfl⟩
  unfold names
  rw [nodes, List.map_cons, List.map_cons, keeps]

/-- A node opens under a new name, a string goes behind the others, and nothing else changes the names or the strings. -/
theorem accept_cases (accepted : draft.accept statement = .ok next) :
    (∃ name, statement = .node name ∧ name ∉ draft.names ∧ next.names = name :: draft.names ∧
      next.strings = draft.strings) ∨
    (∃ index text, statement = .string index text ∧ index.toNat = draft.strings.length ∧
      next.names = draft.names ∧ next.strings = draft.strings ++ [text]) ∨
    (next.names = draft.names ∧ next.strings = draft.strings) := by
  cases statement with
  | program name =>
    cases accepted
    exact .inr (.inr ⟨rfl, rfl⟩)
  | string index text =>
    rw [accept] at accepted
    split at accepted
    next inOrder =>
      cases accepted
      exact .inr (.inl ⟨index, text, rfl, inOrder, rfl, rfl⟩)
    next => cases accepted
  | node name =>
    rw [accept] at accepted
    split at accepted
    next => cases accepted
    next fresh =>
      cases accepted
      refine .inl ⟨name, rfl, fun taken => fresh ?_, rfl, rfl⟩
      obtain ⟨node, member, same⟩ := List.mem_map.mp taken
      exact List.any_eq_true.mpr ⟨node, member, decide_eq_true same⟩
  | tags tags => exact .inr (.inr (edit_keeps accepted fun _ => rfl))
  | instruction instruction => exact .inr (.inr (edit_keeps accepted fun _ => rfl))

end Accept

end Draft

end Dialogue.Source
