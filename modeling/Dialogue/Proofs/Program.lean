import Mathlib.Data.List.Induction
import Mathlib.Data.List.Nodup
import Dialogue.Program

/-!
Programs that differ in single instructions only, and programs that are collected from nodes. Nodes are collected in
whatever order they come, and the first of them whose name has occurred before is refused.
-/

namespace Dialogue

/-- If a key occurs twice, there is a first item whose key has occurred before. -/
theorem exists_first_repeated {α β : Type} {key : α → β} {items : List α} (repeated : ¬(items.map key).Nodup) :
    ∃ before item after, items = before ++ item :: after ∧ (before.map key).Nodup ∧ key item ∈ before.map key := by
  induction items using List.reverseRecOn with
  | nil => exact absurd List.nodup_nil repeated
  | append_singleton items last ih =>
    by_cases apart : (items.map key).Nodup
    · refine ⟨items, last, [], rfl, apart, ?_⟩
      by_contra fresh
      rw [List.map_append, List.map_singleton, ← List.concat_eq_append, List.nodup_concat] at repeated
      exact repeated ⟨fresh, apart⟩
    · obtain ⟨before, item, after, rfl, distinct, among⟩ := ih apart
      exact ⟨before, item, after ++ [last], by simp, distinct, among⟩

def Instruction.mapIndex (f : UInt64 → UInt64) : Instruction → Instruction
  | .runLine index => .runLine (f index)
  | .pushString index => .pushString (f index)
  | .addOption text destination => .addOption (text.map f) destination
  | other => other

theorem Instruction.mapIndex_eq_self {f : UInt64 → UInt64} {instruction : Instruction} :
    instruction.mapIndex f = instruction ↔ ∀ index, instruction.stringIndex? = some index → f index = index := by
  cases instruction with
  | addOption text destination => cases text <;> simp [mapIndex, stringIndex?]
  | _ => simp [mapIndex, stringIndex?]

theorem Instruction.mapIndex_eq_addOption (f : UInt64 → UInt64) (instruction : Instruction) (destination : String) :
    (instruction.mapIndex f = .addOption none destination ↔ instruction = .addOption none destination) ∧
      ((∃ index, instruction.mapIndex f = .addOption (some index) destination) ↔
        ∃ index, instruction = .addOption (some index) destination) := by
  cases instruction with
  | addOption text shown => cases text <;> simp [mapIndex]
  | _ => simp [mapIndex]

theorem Instruction.mapIndex_id (instruction : Instruction) : instruction.mapIndex id = instruction :=
  mapIndex_eq_self.mpr fun _ _ => rfl

theorem Instruction.stringIndex?_mapIndex (f : UInt64 → UInt64) (instruction : Instruction) :
    (instruction.mapIndex f).stringIndex? = instruction.stringIndex?.map f := by
  cases instruction <;> rfl

theorem Instruction.jumpTarget?_mapIndex (f : UInt64 → UInt64) (instruction : Instruction) :
    (instruction.mapIndex f).jumpTarget? = instruction.jumpTarget? := by
  cases instruction <;> rfl

namespace Node

def mapInstructions (f : Instruction → Instruction) (node : Node) : Node :=
  { node with instructions := node.instructions.map f }

theorem mapInstructions_eq_self {f : Instruction → Instruction} {node : Node} :
    node.mapInstructions f = node ↔ ∀ instruction ∈ node.instructions, f instruction = instruction := by
  constructor
  · intro same instruction member
    have instructions : node.instructions.map f = node.instructions.map id := calc
      _ = node.instructions := congrArg Node.instructions same
      _ = _ := (List.map_id _).symm
    exact List.map_inj_left.mp instructions instruction member
  · intro fixed
    unfold mapInstructions
    rw [List.map_congr_left fixed, List.map_id']

theorem labelIndex?_mapIndex (f : UInt64 → UInt64) (node : Node) (label : String) :
    (node.mapInstructions (.mapIndex f)).labelIndex? label = node.labelIndex? label := by
  unfold labelIndex? mapInstructions
  rw [List.findIdx?_map]
  congr 1
  funext instruction
  cases instruction <;> simp [Instruction.mapIndex]

theorem insertByName_perm (node : Node) (nodes : List Node) : (node.insertByName nodes).Perm (node :: nodes) := by
  induction nodes with
  | nil => exact .refl _
  | cons head rest ih =>
    unfold insertByName
    split
    · exact .refl _
    · exact (ih.cons head).trans (.swap node head rest)

end Node

namespace Program

variable {f : Instruction → Instruction} {program : Program}

theorem ext_fields {p q : Program} (name : p.name = q.name) (strings : p.strings = q.strings)
    (nodes : p.nodes = q.nodes) : p = q := by
  obtain ⟨_, _, _, _⟩ := p
  obtain ⟨_, _, _, _⟩ := q
  cases name
  cases strings
  cases nodes
  rfl

def mapInstructions (f : Instruction → Instruction) (program : Program) : Program where
  name := program.name
  strings := program.strings
  nodes := program.nodes.map (Node.mapInstructions f)
  ascending := List.pairwise_map.mpr program.ascending

theorem mapInstructions_eq_self :
    program.mapInstructions f = program ↔
      ∀ node ∈ program.nodes, ∀ instruction ∈ node.instructions, f instruction = instruction := by
  constructor
  · intro same node member
    have nodes : program.nodes.map (Node.mapInstructions f) = program.nodes.map id := calc
      _ = program.nodes := congrArg Program.nodes same
      _ = _ := (List.map_id _).symm
    exact Node.mapInstructions_eq_self.mp (List.map_inj_left.mp nodes node member)
  · intro fixed
    refine ext_fields rfl rfl ?_
    show program.nodes.map (Node.mapInstructions f) = _
    rw [List.map_congr_left fun node member => Node.mapInstructions_eq_self.mpr (fixed node member), List.map_id']

theorem node?_mapInstructions (f : Instruction → Instruction) (program : Program) (name : String) :
    (program.mapInstructions f).node? name = (program.node? name).map (Node.mapInstructions f) := by
  unfold node? mapInstructions
  rw [List.find?_map]
  rfl

theorem hasNode_mapInstructions (f : Instruction → Instruction) (program : Program) (name : String) :
    (program.mapInstructions f).hasNode name = program.hasNode name := by
  rw [hasNode, node?_mapInstructions, Option.isSome_map, hasNode]

/-- The instruction at a position of a node, both counted from zero. -/
def instructionAt? (program : Program) (node position : Nat) : Option Instruction :=
  program.nodes[node]?.bind fun found => found.instructions[position]?

theorem instructionAt?_mapInstructions (f : Instruction → Instruction) (program : Program)
    (node position : Nat) :
    (program.mapInstructions f).instructionAt? node position = (program.instructionAt? node position).map f := by
  show ((program.nodes.map (Node.mapInstructions f))[node]?.bind fun found => found.instructions[position]?) = _
  unfold instructionAt?
  rw [List.getElem?_map]
  cases program.nodes[node]? with
  | none => rfl
  | some found => exact List.getElem?_map

theorem names_nodup (program : Program) : (program.nodes.map Node.name).Nodup := by
  refine List.pairwise_map.mpr (program.ascending.imp fun below same => ?_)
  exact String.lt_irrefl _ (same ▸ below)

/-- Programs with the same nodes have them in the same order. -/
theorem eq_of_perm {p q : Program} (name : p.name = q.name) (strings : p.strings = q.strings)
    (nodes : p.nodes.Perm q.nodes) : p = q := by
  refine ext_fields name strings (nodes.eq_of_pairwise (fun _ _ _ _ below above => ?_) p.ascending q.ascending)
  exact absurd above (String.lt_asymm below)

theorem insert_fresh {node : Node} (fresh : node.name ∉ program.nodes.map Node.name) :
    ∃ next, program.insert node = .ok next ∧ next.name = program.name ∧ next.strings = program.strings ∧
      next.nodes.Perm (node :: program.nodes) := by
  have others : ∀ other ∈ program.nodes, other.name ≠ node.name := fun other member same =>
    fresh (List.mem_map.mpr ⟨other, member, same⟩)
  exact ⟨_, dif_pos others, rfl, rfl, Node.insertByName_perm node program.nodes⟩

theorem insert_taken {node : Node} (taken : node.name ∈ program.nodes.map Node.name) :
    program.insert node = .error ⟨node.name⟩ := by
  obtain ⟨other, member, same⟩ := List.mem_map.mp taken
  exact dif_neg fun fresh => fresh other member same

/-- Nodes are collected in any order, if their names differ from each other and from those that are there. -/
theorem foldlM_insert_fresh {later : List Node} {current : Program}
    (apart : ((later ++ current.nodes).map Node.name).Nodup) :
    ∃ program, later.foldlM insert current = .ok program ∧ program.name = current.name ∧
      program.strings = current.strings ∧ program.nodes.Perm (later ++ current.nodes) := by
  induction later generalizing current with
  | nil => exact ⟨current, rfl, rfl, rfl, .refl _⟩
  | cons node later ih =>
    have fresh : node.name ∉ current.nodes.map Node.name := by
      rw [List.cons_append, List.map_cons, List.nodup_cons, List.map_append] at apart
      exact fun taken => apart.1 (List.mem_append_right _ taken)
    obtain ⟨next, added, name, strings, nodes⟩ := insert_fresh fresh
    have moved : (later ++ next.nodes).Perm (node :: later ++ current.nodes) :=
      (nodes.append_left later).trans List.perm_middle
    obtain ⟨program, collected, sameName, sameStrings, all⟩ := ih ((moved.map Node.name).nodup_iff.mpr apart)
    refine ⟨program, ?_, sameName.trans name, sameStrings.trans strings, all.trans moved⟩
    rw [List.foldlM_cons, added]
    exact collected

theorem ofNodes_of_nodup (name : String) (strings : List String) {nodes : List Node}
    (apart : (nodes.map Node.name).Nodup) :
    ∃ program, ofNodes name strings nodes = .ok program ∧ program.name = name ∧ program.strings = strings ∧
      program.nodes.Perm nodes := by
  have fresh : ((nodes ++ (empty name strings).nodes).map Node.name).Nodup := by
    rwa [show nodes ++ (empty name strings).nodes = nodes from List.append_nil nodes]
  obtain ⟨program, collected, sameName, sameStrings, all⟩ := foldlM_insert_fresh fresh
  refine ⟨program, collected, sameName, sameStrings, ?_⟩
  rwa [show nodes ++ (empty name strings).nodes = nodes from List.append_nil nodes] at all

/-- The first name that has occurred before is the one that is refused. -/
theorem ofNodes_of_repeated (name : String) (strings : List String) {nodes : List Node} {before after : List String}
    {again : String} (names : nodes.map Node.name = before ++ again :: after) (apart : before.Nodup)
    (among : again ∈ before) : ofNodes name strings nodes = .error ⟨again⟩ := by
  obtain ⟨front, behind, rfl, rfl, last⟩ := List.map_eq_append_iff.mp names
  obtain ⟨node, rest, rfl, rfl, _⟩ := List.map_eq_cons_iff.mp last
  obtain ⟨program, collected, _, _, all⟩ := ofNodes_of_nodup name strings apart
  have taken : node.name ∈ program.nodes.map Node.name := (all.map Node.name).mem_iff.mpr among
  unfold ofNodes at collected ⊢
  rw [List.foldlM_append, collected]
  show (node :: rest).foldlM insert program = _
  rw [List.foldlM_cons, insert_taken taken]
  rfl

/-- Whatever nodes are collected into a program, it holds these and no others, and their names differ. -/
theorem ofNodes_eq_ok {name : String} {strings : List String} {nodes : List Node}
    (collected : ofNodes name strings nodes = .ok program) :
    (nodes.map Node.name).Nodup ∧ program.name = name ∧ program.strings = strings ∧ program.nodes.Perm nodes := by
  by_cases apart : (nodes.map Node.name).Nodup
  · obtain ⟨other, found, parts⟩ := ofNodes_of_nodup name strings apart
    cases found.symm.trans collected
    exact ⟨apart, parts⟩
  · obtain ⟨before, node, after, rfl, distinct, among⟩ := exists_first_repeated apart
    have names : (before ++ node :: after).map Node.name = before.map Node.name ++ node.name :: after.map Node.name :=
      List.map_append
    cases (ofNodes_of_repeated name strings names distinct among).symm.trans collected

/-- The order in which nodes are given does not matter. -/
theorem ofNodes_of_perm {name : String} {strings : List String} {nodes others : List Node}
    (collected : ofNodes name strings nodes = .ok program) (same : others.Perm nodes) :
    ofNodes name strings others = .ok program := by
  obtain ⟨apart, names, texts, all⟩ := ofNodes_eq_ok collected
  obtain ⟨again, found, namesToo, textsToo, allToo⟩ :=
    ofNodes_of_nodup name strings ((same.map Node.name).nodup_iff.mpr apart)
  rw [found, eq_of_perm (namesToo.trans names.symm) (textsToo.trans texts.symm) (allToo.trans (same.trans all.symm))]

theorem ofNodes_nodes (program : Program) : ofNodes program.name program.strings program.nodes = .ok program := by
  obtain ⟨again, collected, name, strings, nodes⟩ :=
    ofNodes_of_nodup program.name program.strings program.names_nodup
  rw [collected, eq_of_perm name strings nodes]

end Program

end Dialogue
