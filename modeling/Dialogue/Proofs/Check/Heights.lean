import Dialogue.Check

/-!
What the heights found by the check say. A worklist computes them; when it ends, every height it has recorded is
closed under the instructions: an instruction of known effect finds the values it takes, and hands its height on to
every position that control may reach from it.
-/

namespace Dialogue.Node

section Worklist

variable (node : Node) (signature? : Signatures) {heights : Heights} {position : Nat}

theorem explore_nil (heights : Heights) : node.explore signature? heights [] = .ok heights := by
  rw [explore]

theorem explore_outside (outside : heights[position]? = none) (height : Nat)
    (others : List (Nat × Nat)) :
    node.explore signature? heights ((position, height) :: others) = node.explore signature? heights others := by
  rw [explore]
  split <;> simp_all

theorem explore_seen {seen : Nat} (recorded : heights[position]? = some (some seen))
    (height : Nat) (others : List (Nat × Nat)) :
    node.explore signature? heights ((position, height) :: others) =
      if seen = height then node.explore signature? heights others
      else .error (position, .heightMismatch seen height) := by
  rw [explore]
  split <;> simp_all

/-- A position that is new gets its height, and its instruction, if it has one, hands it on. -/
theorem explore_unseen (unseen : heights[position]? = some none) (height : Nat)
    (others : List (Nat × Nat)) :
    node.explore signature? heights ((position, height) :: others) =
      match node.instructions[position]? with
      | none => node.explore signature? (heights.set position (some height)) others
      | some instruction =>
        match instruction.effect? signature? with
        | none => node.explore signature? (heights.set position (some height)) others
        | some effect =>
          if height < effect.pops then .error (position, .underflow instruction effect.pops height)
          else node.explore signature? (heights.set position (some height))
            (((node.successors position instruction).map fun target =>
              (target, height - effect.pops + effect.pushes)).reverse ++ others) := by
  rw [explore]
  split
  · simp_all
  · simp_all
  · rfl

end Worklist

/-- The recorded heights suffice for their instructions, and lead on to recorded heights or to ones that are still to
be looked at. Positions behind the node need no height. -/
def Leads (node : Node) (signature? : Signatures) (heights : Heights) (reached : List (Nat × Nat)) : Prop :=
  ∀ (position height : Nat) instruction effect, heights[position]? = some (some height) →
    node.instructions[position]? = some instruction → instruction.effect? signature? = some effect →
      effect.pops ≤ height ∧ ∀ target ∈ node.successors position instruction, target < heights.length →
        heights[target]? = some (some (height - effect.pops + effect.pushes)) ∨
          (target, height - effect.pops + effect.pushes) ∈ reached

/-- What a worklist makes of the heights that it starts from. -/
structure Explored (node : Node) (signature? : Signatures) (heights final : Heights) (reached : List (Nat × Nat)) :
    Prop where
  length : final.length = heights.length
  keeps : ∀ position height : Nat, heights[position]? = some (some height) → final[position]? = some (some height)
  visits : ∀ position height : Nat, (position, height) ∈ reached → position < heights.length →
    final[position]? = some (some height)
  leads : node.Leads signature? final []

section Laws

variable {node : Node} {signature? : Signatures} {heights final : Heights} {others : List (Nat × Nat)}
  {position height : Nat}

/-- A pair that is no news may be dropped. -/
theorem Leads.drop (leads : node.Leads signature? heights ((position, height) :: others))
    (settled : position < heights.length → heights[position]? = some (some height)) :
    node.Leads signature? heights others := by
  intro source from_ instruction effect recorded here known
  obtain ⟨enough, onward⟩ := leads source from_ instruction effect recorded here known
  refine ⟨enough, fun target follows inside => ?_⟩
  rcases onward target follows inside with done | waiting
  · exact .inl done
  · rcases List.mem_cons.mp waiting with same | later
    · cases same
      exact .inl (settled inside)
    · exact .inr later

/-- Recording a height keeps the law if the instruction there suffices with it and its successors are put on the
worklist. -/
theorem Leads.record {added : List (Nat × Nat)} (leads : node.Leads signature? heights ((position, height) :: others))
    (unseen : heights[position]? = some none)
    (obeys : ∀ instruction effect, node.instructions[position]? = some instruction →
      instruction.effect? signature? = some effect → effect.pops ≤ height ∧
        ∀ target ∈ node.successors position instruction, (target, height - effect.pops + effect.pushes) ∈ added) :
    node.Leads signature? (heights.set position (some height)) (added ++ others) := by
  have inside : position < heights.length := (List.getElem?_eq_some_iff.mp unseen).1
  intro source from_ instruction effect recorded here known
  by_cases same : source = position
  · subst same
    rw [List.getElem?_set_self inside] at recorded
    cases recorded
    obtain ⟨enough, onward⟩ := obeys instruction effect here known
    exact ⟨enough, fun target follows _ => .inr (List.mem_append_left others (onward target follows))⟩
  · rw [List.getElem?_set_ne (Ne.symm same)] at recorded
    obtain ⟨enough, onward⟩ := leads source from_ instruction effect recorded here known
    refine ⟨enough, fun target follows bound => ?_⟩
    rw [List.length_set] at bound
    rcases onward target follows bound with done | waiting
    · have different : position ≠ target := by
        rintro rfl
        rw [unseen] at done
        cases done
      exact .inl ((List.getElem?_set_ne different).trans done)
    · rcases List.mem_cons.mp waiting with now | later
      · cases now
        exact .inl (List.getElem?_set_self inside)
      · exact .inr (List.mem_append_right added later)

theorem Explored.drop (explored : node.Explored signature? heights final others)
    (settled : position < heights.length → heights[position]? = some (some height)) :
    node.Explored signature? heights final ((position, height) :: others) where
  length := explored.length
  keeps := explored.keeps
  visits := by
    intro target found member inside
    rcases List.mem_cons.mp member with same | later
    · cases same
      exact explored.keeps position height (settled inside)
    · exact explored.visits target found later inside
  leads := explored.leads

theorem Explored.record {added : List (Nat × Nat)} (unseen : heights[position]? = some none)
    (explored : node.Explored signature? (heights.set position (some height)) final (added ++ others)) :
    node.Explored signature? heights final ((position, height) :: others) where
  length := by rw [explored.length, List.length_set]
  keeps := by
    intro target found recorded
    have different : position ≠ target := by
      rintro rfl
      rw [unseen] at recorded
      cases recorded
    exact explored.keeps target found ((List.getElem?_set_ne different).trans recorded)
  visits := by
    intro target found member inside
    rcases List.mem_cons.mp member with same | later
    · cases same
      exact explored.keeps position height (List.getElem?_set_self inside)
    · exact explored.visits target found (List.mem_append_right added later) (by rwa [List.length_set])
  leads := explored.leads

end Laws

/-- The worklist ends with heights that lead nowhere but to themselves. -/
theorem explore_explored {node : Node} {signature? : Signatures} {heights final : Heights}
    {reached : List (Nat × Nat)} (leads : node.Leads signature? heights reached)
    (found : node.explore signature? heights reached = .ok final) :
    node.Explored signature? heights final reached := by
  fun_induction node.explore signature? heights reached with
  | case1 =>
    cases found
    exact ⟨rfl, fun _ _ recorded => recorded, by simp, leads⟩
  | case2 heights position height others outside ih =>
    have settled : position < heights.length → heights[position]? = some (some height) := fun inside =>
      absurd (List.getElem?_eq_none_iff.mp outside) (by omega)
    exact (ih (leads.drop settled) found).drop settled
  | case3 heights position others height recorded ih =>
    exact (ih (leads.drop fun _ => recorded) found).drop fun _ => recorded
  | case4 => cases found
  | case5 heights position height others unseen _ visited beyond ih =>
    have next : node.Leads signature? visited ([] ++ others) :=
      leads.record unseen fun instruction effect here => by simp [beyond] at here
    exact .record unseen (show node.Explored signature? visited final ([] ++ others) from ih next found)
  | case6 heights position height others unseen _ visited instruction here unknown ih =>
    have next : node.Leads signature? visited ([] ++ others) := by
      apply leads.record unseen
      intro other effect there known
      cases here.symm.trans there
      rw [unknown] at known
      cases known
    exact .record unseen (show node.Explored signature? visited final ([] ++ others) from ih next found)
  | case7 => cases found
  | case8 heights position height others unseen _ visited instruction here effect known enough next ih =>
    refine Explored.record unseen (ih (leads.record unseen fun other effect' there known' => ?_) found)
    cases here.symm.trans there
    cases known.symm.trans known'
    refine ⟨Nat.le_of_not_lt enough, fun target follows => ?_⟩
    exact List.mem_reverse.mpr (List.mem_map.mpr ⟨target, follows, rfl⟩)

/-- At the start no height is recorded. -/
theorem unrecorded (node : Node) (position height : Nat) :
    (node.instructions.map fun _ => none)[position]? ≠ some (some height) := by
  rw [List.getElem?_map]
  cases node.instructions[position]? <;> simp

theorem leads_unrecorded (node : Node) (signature? : Signatures) (reached : List (Nat × Nat)) :
    node.Leads signature? (node.instructions.map fun _ => none) reached :=
  fun position height _ _ recorded => absurd recorded (node.unrecorded position height)

/-- The laws of the heights that an accepted node has. -/
theorem heights_explored {node : Node} {signature? : Signatures} {final : Heights}
    (found : node.heights signature? = .ok final) :
    node.Explored signature? (node.instructions.map fun _ => none) final [(0, 0)] :=
  explore_explored (leads_unrecorded node signature? [(0, 0)]) found

section Accepted

variable {node : Node} {signature? : Signatures} {final : Heights}

theorem heights_start (found : node.heights signature? = .ok final) {instruction : Instruction}
    (here : node.instructions[0]? = some instruction) : final[0]? = some (some 0) := by
  have inside : 0 < node.instructions.length := (List.getElem?_eq_some_iff.mp here).1
  exact (heights_explored found).visits 0 0 List.mem_cons_self (by simpa using inside)

theorem heights_enough (found : node.heights signature? = .ok final) {position height : Nat}
    {instruction : Instruction} {effect : Effect} (recorded : final[position]? = some (some height))
    (here : node.instructions[position]? = some instruction) (known : instruction.effect? signature? = some effect) :
    effect.pops ≤ height :=
  ((heights_explored found).leads position height instruction effect recorded here known).1

/-- Every height hands itself on, changed by its instruction. -/
theorem heights_successor (found : node.heights signature? = .ok final) {position height target : Nat}
    {instruction next : Instruction} {effect : Effect} (recorded : final[position]? = some (some height))
    (here : node.instructions[position]? = some instruction) (known : instruction.effect? signature? = some effect)
    (follows : target ∈ node.successors position instruction) (there : node.instructions[target]? = some next) :
    final[target]? = some (some (height - effect.pops + effect.pushes)) := by
  have explored := heights_explored found
  have inside : target < final.length := by
    rw [explored.length, List.length_map]
    exact (List.getElem?_eq_some_iff.mp there).1
  have onward := (explored.leads position height instruction effect recorded here known).2 target follows inside
  simpa using onward

end Accepted

end Dialogue.Node
