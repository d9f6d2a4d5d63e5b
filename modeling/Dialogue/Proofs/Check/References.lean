import Dialogue.Check

/-!
What the check asks of labels and texts before it follows any path: every jump with a fixed target finds its label in
the node, and every string index its text in the table. A program is accepted just if each of its nodes is.
-/

namespace Dialogue

theorem forM_eq_ok {α ε : Type} {check : α → Except ε Unit} {items : List α} :
    items.forM check = .ok () ↔ ∀ item ∈ items, check item = .ok () := by
  induction items with
  | nil => simp [pure, Except.pure]
  | cons item rest ih =>
    rw [List.forall_mem_cons, ← ih]
    show (check item >>= fun _ => rest.forM check) = .ok () ↔ _
    rcases check item with error | ⟨⟩ <;> simp [bind, Except.bind]

theorem Program.check_eq_ok {program : Program} {signature? : Signatures} :
    program.check signature? = .ok () ↔ ∀ node ∈ program.nodes, node.check program.strings signature? = .ok () :=
  forM_eq_ok

namespace Node

variable {node : Node} {strings : List String} {signature? : Signatures}

/-- A label leads to the first place that has it. -/
theorem labelIndex?_eq_some {label : String} {target : Nat} :
    node.labelIndex? label = some target ↔ node.instructions[target]? = some (.label label) ∧
      ∀ earlier < target, node.instructions[earlier]? ≠ some (.label label) := by
  unfold labelIndex?
  rw [List.findIdx?_eq_some_iff_getElem]
  constructor
  · rintro ⟨inside, there, first⟩
    refine ⟨List.getElem?_eq_some_iff.mpr ⟨inside, of_decide_eq_true there⟩, fun earlier before found => ?_⟩
    obtain ⟨_, same⟩ := List.getElem?_eq_some_iff.mp found
    exact first earlier before (decide_eq_true same)
  · rintro ⟨there, first⟩
    obtain ⟨inside, same⟩ := List.getElem?_eq_some_iff.mp there
    refine ⟨inside, decide_eq_true same, fun earlier before found => ?_⟩
    exact first earlier before
      (List.getElem?_eq_some_iff.mpr ⟨Nat.lt_trans before inside, of_decide_eq_true found⟩)

theorem labelIndex?_eq_none {label : String} : node.labelIndex? label = none ↔ .label label ∉ node.instructions := by
  unfold labelIndex?
  rw [List.findIdx?_eq_none_iff]
  constructor
  · intro absent member
    exact of_decide_eq_false (absent _ member) rfl
  · intro absent instruction member
    exact decide_eq_false fun same => absent (same ▸ member)

theorem danglingReference?_eq_none {instruction : Instruction} :
    node.danglingReference? strings instruction = none ↔
      (∀ label, instruction.jumpTarget? = some label → .label label ∈ node.instructions) ∧
        ∀ index, instruction.stringIndex? = some index → index.toNat < strings.length := by
  unfold danglingReference?
  rw [Option.or_eq_none_iff]
  apply and_congr
  · cases instruction.jumpTarget? with
    | none => simp
    | some label =>
      have known : .label label ∈ node.instructions ↔ node.labelIndex? label ≠ none := by
        rw [ne_eq, labelIndex?_eq_none, Decidable.not_not]
      simp [known]
  · cases instruction.stringIndex? with
    | none => simp
    | some index => simp

theorem label_of_danglingReference? {instruction : Instruction} {label : String}
    (clean : node.danglingReference? strings instruction = none) (aimed : instruction.jumpTarget? = some label) :
    node.labelIndex? label ≠ none := fun absent =>
  labelIndex?_eq_none.mp absent ((danglingReference?_eq_none.mp clean).1 label aimed)

theorem string_of_danglingReference? {instruction : Instruction} {index : UInt64}
    (clean : node.danglingReference? strings instruction = none) (read : instruction.stringIndex? = some index) :
    strings[index.toNat]? ≠ none := fun absent =>
  absurd ((danglingReference?_eq_none.mp clean).2 index read) (Nat.not_lt.mpr (List.getElem?_eq_none_iff.mp absent))

theorem firstDangling?_eq_none {position : Nat} {instructions : List Instruction} :
    node.firstDangling? strings position instructions = none ↔
      ∀ instruction ∈ instructions, node.danglingReference? strings instruction = none := by
  induction instructions generalizing position with
  | nil => simp [firstDangling?]
  | cons first rest ih =>
    rw [firstDangling?, List.forall_mem_cons]
    cases node.danglingReference? strings first with
    | some violation => simp
    | none => simpa using ih

/-- What is found first is a label or a text, never a matter of heights. -/
theorem reference_of_firstDangling? {position found : Nat} {violation : Violation} {instructions : List Instruction}
    (dangles : node.firstDangling? strings position instructions = some (found, violation)) :
    (∃ label, violation = .unknownLabel label) ∨ ∃ index, violation = .stringIndex index := by
  induction instructions generalizing position with
  | nil => cases dangles
  | cons first rest ih =>
    rw [firstDangling?] at dangles
    split at dangles
    next missing =>
      cases dangles
      unfold danglingReference? at missing
      rcases Option.or_eq_some_iff.mp missing with label | ⟨_, index⟩
      · obtain ⟨label, _, names⟩ := Option.bind_eq_some_iff.mp label
        exact .inl ⟨label, (Option.some.inj (Option.ite_none_right_eq_some.mp names).2).symm⟩
      · obtain ⟨index, _, names⟩ := Option.bind_eq_some_iff.mp index
        exact .inr ⟨index, (Option.some.inj (Option.ite_none_right_eq_some.mp names).2).symm⟩
    next => exact ih dangles

theorem check_eq_ok :
    node.check strings signature? = .ok () ↔
      (∀ instruction ∈ node.instructions, node.danglingReference? strings instruction = none) ∧
        ∃ heights, node.heights signature? = .ok heights := by
  unfold check
  rw [← @firstDangling?_eq_none node strings 0]
  cases node.firstDangling? strings 0 node.instructions with
  | some found => simp
  | none => cases node.heights signature? <;> simp

/-- An error names the node, and comes from a reference or from the heights. -/
theorem eq_of_check_error {error : CheckError} (failed : node.check strings signature? = .error error) :
    ∃ position violation, error = ⟨node.name, position, violation⟩ ∧
      (node.firstDangling? strings 0 node.instructions = some (position, violation) ∨
        node.heights signature? = .error (position, violation)) := by
  unfold check at failed
  split at failed
  next position violation dangles =>
    cases failed
    exact ⟨position, violation, rfl, .inl dangles⟩
  next =>
    split at failed
    next position violation found =>
      cases failed
      exact ⟨position, violation, rfl, .inr found⟩
    next => cases failed

end Node

end Dialogue
