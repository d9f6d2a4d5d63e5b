import Dialogue.Proofs.Source.Diagnostics

/-!
The parts of a draft. Statements about the program as a whole, its name and its strings, never look at the nodes, and
statements about nodes never look at anything else; a node that is opened is built from its own statements alone. So the
statements of a text may be sorted by these parts, and the nodes that they build are the same in every draft.
-/

namespace Dialogue.Source

namespace Statement

/-- Whether the statement names the program or adds to its strings. -/
def declares : Statement → Bool
  | .program _ | .string _ _ => true
  | _ => false

def opensNode : Statement → Bool
  | .node _ => true
  | _ => false

/-- What the statement makes of the latest node, or the node that it opens. -/
def change : Statement → Node → Node
  | .node name, _ => ⟨name, [], []⟩
  | .tags added, latest => { latest with tags := latest.tags ++ added }
  | .instruction added, latest => { latest with instructions := latest.instructions ++ [added] }
  | .program _, latest | .string _ _, latest => latest

/-- Whether the statement is about the latest node. -/
def edits (statement : Statement) : Bool := !statement.declares && !statement.opensNode

/-- The statements of one node: it is opened, and all others are about it. -/
def IsBlock (block : List Statement) : Prop :=
  ∃ name inner, block = node name :: inner ∧ ∀ statement ∈ inner, statement.edits = true

/-- The node that a block builds. -/
def build (block : List Statement) : Node := block.foldl (fun latest statement => statement.change latest) ⟨"", [], []⟩

theorem name_change {statement : Statement} (edits : statement.edits = true) (latest : Node) :
    (statement.change latest).name = latest.name := by
  cases statement <;> first | rfl | cases edits

theorem name_build {name : String} {inner : List Statement} (edits : ∀ statement ∈ inner, statement.edits = true) :
    (build (node name :: inner)).name = name := by
  show (inner.foldl _ (⟨name, [], []⟩ : Node)).name = (⟨name, [], []⟩ : Node).name
  generalize (⟨name, [], []⟩ : Node) = latest
  induction inner generalizing latest with
  | nil => rfl
  | cons statement inner ih =>
    obtain ⟨first, others⟩ := List.forall_mem_cons.mp edits
    rw [List.foldl_cons, ih others, name_change first]

end Statement

namespace Draft

variable {draft next last : Draft} {statement : Statement} {statements : List Statement}

def acceptAll (draft : Draft) (statements : List Statement) : Except Defect Draft := statements.foldlM accept draft

theorem acceptAll_nil (draft : Draft) : draft.acceptAll [] = .ok draft := rfl

theorem acceptAll_cons : draft.acceptAll (statement :: statements) = .ok last ↔
    ∃ next, draft.accept statement = .ok next ∧ next.acceptAll statements = .ok last := by
  unfold acceptAll
  rw [List.foldlM_cons]
  constructor
  · exact eq_ok_of_bind
  · rintro ⟨next, accepted, others⟩
    rw [accepted]
    exact others

theorem acceptAll_append {later : List Statement} : draft.acceptAll (statements ++ later) = .ok last ↔
    ∃ next, draft.acceptAll statements = .ok next ∧ next.acceptAll later = .ok last := by
  unfold acceptAll
  rw [List.foldlM_append]
  constructor
  · exact eq_ok_of_bind
  · rintro ⟨next, accepted, others⟩
    rw [accepted]
    exact others

section Separation

/-- A declaration leaves the nodes alone, whatever they are. -/
theorem accept_declaration (declares : statement.declares = true) (accepted : draft.accept statement = .ok next) :
    next.nodes = draft.nodes ∧
      ∀ nodes, { draft with nodes }.accept statement = .ok { next with nodes } := by
  cases statement with
  | program name =>
    cases accepted
    exact ⟨rfl, fun _ => rfl⟩
  | string index text =>
    rw [accept] at accepted
    split at accepted
    next inOrder =>
      cases accepted
      exact ⟨rfl, fun _ => if_pos inOrder⟩
    next => cases accepted
  | _ => cases declares

/-- Any other statement looks at the nodes alone. -/
theorem accept_other (other : statement.declares = false) (accepted : draft.accept statement = .ok next) :
    next.name = draft.name ∧ next.strings = draft.strings ∧
      ∀ name strings, accept ⟨name, strings, draft.nodes⟩ statement = .ok ⟨name, strings, next.nodes⟩ := by
  have edited {change : Node → Node} (found : draft.edit change = .ok next) :
      next.name = draft.name ∧ next.strings = draft.strings ∧
        ∀ name strings, edit ⟨name, strings, draft.nodes⟩ change = .ok ⟨name, strings, next.nodes⟩ := by
    obtain ⟨node, earlier, nodes, rfl⟩ := edit_eq_ok found
    exact ⟨rfl, rfl, fun name strings => by rw [nodes]; rfl⟩
  cases statement with
  | node name =>
    rw [accept] at accepted
    split at accepted
    next => cases accepted
    next fresh =>
      cases accepted
      exact ⟨rfl, rfl, fun _ _ => if_neg fresh⟩
  | tags tags => exact edited accepted
  | instruction instruction => exact edited accepted
  | _ => cases other

/-- The declarations among some statements make the same of any nodes, and the others of any name and strings. -/
theorem acceptAll_separate (accepted : draft.acceptAll statements = .ok last) :
    (∀ nodes, { draft with nodes }.acceptAll (statements.filter Statement.declares) = .ok { last with nodes }) ∧
      ∀ name strings, acceptAll ⟨name, strings, draft.nodes⟩ (statements.filter (!·.declares)) =
        .ok ⟨name, strings, last.nodes⟩ := by
  induction statements generalizing draft with
  | nil =>
    cases accepted
    exact ⟨fun _ => rfl, fun _ _ => rfl⟩
  | cons statement statements ih =>
    obtain ⟨next, first, rest⟩ := acceptAll_cons.mp accepted
    obtain ⟨declared, grown⟩ := ih rest
    cases kind : statement.declares with
    | true =>
      obtain ⟨nodes, same⟩ := accept_declaration kind first
      rw [List.filter_cons_of_pos kind, List.filter_cons_of_neg (by simp [kind]), ← nodes]
      exact ⟨fun nodes => acceptAll_cons.mpr ⟨_, same nodes, declared nodes⟩, grown⟩
    | false =>
      obtain ⟨name, strings, same⟩ := accept_other kind first
      rw [List.filter_cons_of_neg (by simp [kind]), List.filter_cons_of_pos (by simp [kind]), ← name, ← strings]
      exact ⟨declared, fun name strings => acceptAll_cons.mpr ⟨_, same name strings, grown name strings⟩⟩

end Separation

section Blocks

theorem accept_edit (edits : statement.edits = true) (name : String) (strings : List String) (node : Node)
    (earlier : List Node) :
    accept ⟨name, strings, node :: earlier⟩ statement = .ok ⟨name, strings, statement.change node :: earlier⟩ := by
  cases statement <;> first | rfl | cases edits

/-- There is nothing to say about a node before one is opened. -/
theorem accept_edit_nil (edits : statement.edits = true) (empty : draft.nodes = []) :
    draft.accept statement = .error .outsideNode := by
  cases statement with
  | tags | instruction =>
    unfold accept edit
    rw [empty]
  | _ => cases edits

theorem acceptAll_edits (edits : ∀ statement ∈ statements, statement.edits = true) (name : String)
    (strings : List String) (node : Node) (earlier : List Node) :
    acceptAll ⟨name, strings, node :: earlier⟩ statements =
      .ok ⟨name, strings, statements.foldl (fun node statement => statement.change node) node :: earlier⟩ := by
  induction statements generalizing node with
  | nil => rfl
  | cons statement statements ih =>
    obtain ⟨first, others⟩ := List.forall_mem_cons.mp edits
    exact acceptAll_cons.mpr ⟨_, accept_edit first name strings node earlier, ih others _⟩

/-- A block adds its node, if no node has its name. -/
theorem acceptAll_block {block : List Statement} (isBlock : Statement.IsBlock block) :
    draft.acceptAll block = .ok next ↔ (Statement.build block).name ∉ draft.names ∧
      next = { draft with nodes := Statement.build block :: draft.nodes } := by
  obtain ⟨name, inner, rfl, edits⟩ := isBlock
  have taken : draft.nodes.any (·.name = name) = true ↔ name ∈ draft.names := by simp [names]
  rw [Statement.name_build edits, acceptAll_cons]
  constructor
  · rintro ⟨opened, accepted, others⟩
    rw [accept] at accepted
    split at accepted
    next => cases accepted
    next fresh =>
      cases accepted
      rw [acceptAll_edits edits] at others
      cases others
      exact ⟨fun among => fresh (taken.mpr among), rfl⟩
  · rintro ⟨fresh, rfl⟩
    exact ⟨_, if_neg fun among => fresh (taken.mp among), acceptAll_edits edits _ _ _ _⟩

/-- Blocks add their nodes, the latest first, if all names differ. -/
theorem acceptAll_blocks {blocks : List (List Statement)} (each : ∀ block ∈ blocks, Statement.IsBlock block)
    (distinct : draft.Distinct) :
    draft.acceptAll blocks.flatten = .ok last ↔
      last = { draft with nodes := (blocks.map Statement.build).reverse ++ draft.nodes } ∧ last.Distinct := by
  induction blocks generalizing draft with
  | nil =>
    rw [List.flatten_nil, acceptAll_nil]
    constructor
    · rintro ⟨⟩
      exact ⟨rfl, distinct⟩
    · rintro ⟨rfl, _⟩
      rfl
  | cons block blocks ih =>
    obtain ⟨first, others⟩ := List.forall_mem_cons.mp each
    have moved : (blocks.map Statement.build).reverse ++ Statement.build block :: draft.nodes =
        ((block :: blocks).map Statement.build).reverse ++ draft.nodes := by simp
    rw [List.flatten_cons, acceptAll_append, ← moved]
    constructor
    · rintro ⟨next, opened, rest⟩
      obtain ⟨fresh, rfl⟩ := (acceptAll_block first).mp opened
      have apart : Distinct { draft with nodes := Statement.build block :: draft.nodes } :=
        List.nodup_cons.mpr ⟨fresh, distinct⟩
      exact (ih others apart).mp rest
    · rintro ⟨rfl, apart⟩
      -- The names of the later nodes differ from each other, and all of them from those in the draft.
      have inside : (Statement.build block :: draft.nodes).Sublist
          ((blocks.map Statement.build).reverse ++ Statement.build block :: draft.nodes) := List.sublist_append_right _ _
      have new : Distinct { draft with nodes := Statement.build block :: draft.nodes } :=
        List.Nodup.sublist (inside.map Node.name) apart
      exact ⟨_, (acceptAll_block first).mpr ⟨(List.nodup_cons.mp new).1, rfl⟩, (ih others new).mpr ⟨rfl, apart⟩⟩

end Blocks

section Order

variable {front : List Statement} {blocks order : List (List Statement)} {program : Program}

/-- No text states anything about a node in front of the first one. -/
theorem front_eq_nil (accepted : Draft.empty.acceptAll (front ++ statements) = .ok last)
    (edits : ∀ statement ∈ front, statement.edits = true) : front = [] := by
  cases front with
  | nil => rfl
  | cons statement front =>
    obtain ⟨next, first, _⟩ := acceptAll_cons.mp accepted
    rw [accept_edit_nil (edits statement List.mem_cons_self) rfl] at first
    cases first

/-- Statements make the same program with the declarations in front and the blocks of the nodes in any order. -/
theorem finish_of_perm (accepted : Draft.empty.acceptAll statements = .ok draft) (finished : draft.finish = .ok program)
    (parts : statements.filter (!·.declares) = front ++ blocks.flatten)
    (edits : ∀ statement ∈ front, statement.edits = true) (each : ∀ block ∈ blocks, Statement.IsBlock block)
    (same : order.Perm blocks) :
    ∃ other, Draft.empty.acceptAll (statements.filter Statement.declares ++ front ++ order.flatten) = .ok other ∧
      other.finish = .ok program := by
  obtain ⟨declared, grown⟩ := acceptAll_separate accepted
  have body := grown "" []
  rw [parts] at body
  obtain rfl := front_eq_nil body edits
  have unnamed : Distinct ⟨"", [], []⟩ := List.nodup_nil
  obtain ⟨built, distinct⟩ := (acceptAll_blocks each unnamed).mp body
  have nodes : draft.nodes = (blocks.map Statement.build).reverse := by
    have all := congrArg Draft.nodes built
    rwa [show ((⟨"", [], []⟩ : Draft).nodes) = [] from rfl, List.append_nil] at all
  have moved : (order.map Statement.build).reverse.Perm draft.nodes := by
    rw [nodes]
    exact (List.reverse_perm _).trans ((same.map _).trans (List.reverse_perm _).symm)
  refine ⟨{ draft with nodes := (order.map Statement.build).reverse }, ?_, ?_⟩
  · rw [List.append_nil, acceptAll_append]
    refine ⟨_, declared [], (acceptAll_blocks (fun block member => each block (same.mem_iff.mp member)) ?_).mpr ⟨?_, ?_⟩⟩
    · exact List.nodup_nil
    · rw [List.append_nil]
    · exact (moved.map Node.name).nodup_iff.mpr distinct
  · rw [finish_eq_ok] at finished ⊢
    exact Program.ofNodes_of_perm finished ((List.reverse_perm _).trans (moved.trans (List.reverse_perm _).symm))

end Order

end Draft

end Dialogue.Source
