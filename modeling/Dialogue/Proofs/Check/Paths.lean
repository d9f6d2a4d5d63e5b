import Dialogue.Proofs.Check.Heights
import Dialogue.Proofs.Check.References

/-!
What the check decides. A node has paths, as many as it likes if its jumps go round in circles; along each of them the
effects of the instructions add up to a height. The worklist looks at every instruction once, in an order of its own,
and yet it accepts just the nodes in which no instruction on any path takes more than it finds and paths that meet have
the same height; and if it does not accept, it names a place where a path shows why.
-/

namespace Dialogue

/-- Whether control passes on to the next instruction. It does not behind a jump, nor where the node is left, and
cannot be followed behind a function that is not known. -/
def Instruction.passesOn (signature? : Signatures) : Instruction → Bool
  | .jumpTo _ | .jump | .stop | .runNode => false
  | .callFunction name => (signature? name).isSome
  | _ => true

namespace Node

/-- The first place in the node that has the label. -/
structure FirstLabel (node : Node) (label : String) (position : Nat) : Prop where
  there : node.instructions[position]? = some (.label label)
  first : ∀ earlier < position, node.instructions[earlier]? ≠ some (.label label)

/-- Control may go from one instruction of the node to another, as far as it can be followed before the node is
played. -/
inductive Flows (node : Node) (signature? : Signatures) : Nat → Nat → Prop
  | onward {position : Nat} {instruction : Instruction} (here : node.instructions[position]? = some instruction)
      (passes : instruction.passesOn signature? = true) (inside : position + 1 < node.instructions.length) :
      Flows node signature? position (position + 1)
  | jump {position target : Nat} {label : String} (here : node.instructions[position]? = some (.jumpTo label))
      (found : node.FirstLabel label target) : Flows node signature? position target
  | branch {position target : Nat} {label : String} (here : node.instructions[position]? = some (.jumpIfFalse label))
      (found : node.FirstLabel label target) : Flows node signature? position target

/-- A path from the first instruction: the positions that it has passed, the latest first, and the one that it has come
to. -/
inductive Path (node : Node) (signature? : Signatures) : List Nat → Nat → Prop
  | start (inside : 0 < node.instructions.length) : Path node signature? [] 0
  | step {passed : List Nat} {position target : Nat} (path : Path node signature? passed position)
      (flows : node.Flows signature? position target) : Path node signature? (position :: passed) target

/-- What the instruction at a position adds to the height of the stack. -/
def change (node : Node) (signature? : Signatures) (position : Nat) : Int :=
  match node.instructions[position]?.bind (Instruction.effect? signature?) with
  | some effect => effect.pushes - effect.pops
  | none => 0

/-- The height of the stack behind all these positions, from nothing at the start. -/
def heightAfter (node : Node) (signature? : Signatures) : List Nat → Int
  | [] => 0
  | position :: passed => node.heightAfter signature? passed + node.change signature? position

/-- Every fixed label that is jumped to stands in the node, and every text that is referred to in the table. -/
structure Resolved (node : Node) (strings : List String) : Prop where
  labels : ∀ label, .jumpTo label ∈ node.instructions ∨ .jumpIfFalse label ∈ node.instructions →
    .label label ∈ node.instructions
  texts : ∀ index : UInt64, .runLine index ∈ node.instructions ∨ .pushString index ∈ node.instructions ∨
    (∃ destination, .addOption (some index) destination ∈ node.instructions) → index.toNat < strings.length

/-- No path comes to an instruction that takes more than it finds, and paths that come to the same instruction have the
same height. An instruction on a path ends a path of its own, so that this speaks of all instructions on it. -/
structure PathsFit (node : Node) (signature? : Signatures) : Prop where
  enough : ∀ {passed position instruction effect}, node.Path signature? passed position →
    node.instructions[position]? = some instruction → instruction.effect? signature? = some effect →
      (effect.pops : Int) ≤ node.heightAfter signature? passed
  agree : ∀ {passed others position}, node.Path signature? passed position → node.Path signature? others position →
    node.heightAfter signature? passed = node.heightAfter signature? others

/-- A violation that paths to the position show: two of them arrive with different heights, or one of them with less
than the instruction takes. -/
inductive Shown (node : Node) (signature? : Signatures) (position : Nat) : Violation → Prop
  | mismatch {passed others : List Nat} {seen found : Nat} (path : node.Path signature? passed position)
      (other : node.Path signature? others position) (sees : node.heightAfter signature? passed = seen)
      (finds : node.heightAfter signature? others = found) (differs : seen ≠ found) :
      Shown node signature? position (.heightMismatch seen found)
  | underflow {passed : List Nat} {instruction : Instruction} {effect : Effect} {available : Nat}
      (path : node.Path signature? passed position) (here : node.instructions[position]? = some instruction)
      (known : instruction.effect? signature? = some effect) (finds : node.heightAfter signature? passed = available)
      (short : available < effect.pops) : Shown node signature? position (.underflow instruction effect.pops available)

section Flow

variable {node : Node} {signature? : Signatures} {position target : Nat}

theorem firstLabel_iff {label : String} : node.FirstLabel label target ↔ node.labelIndex? label = some target :=
  ⟨fun found => labelIndex?_eq_some.mpr ⟨found.there, found.first⟩, fun found =>
    have ⟨there, first⟩ := labelIndex?_eq_some.mp found
    ⟨there, first⟩⟩

theorem FirstLabel.inside {label : String} (found : node.FirstLabel label target) :
    target < node.instructions.length := (List.getElem?_eq_some_iff.mp found.there).1

/-- Control flows to the successors of an instruction of known effect, as far as they lie in the node. -/
theorem flows_iff :
    node.Flows signature? position target ↔ target < node.instructions.length ∧
      ∃ instruction effect, node.instructions[position]? = some instruction ∧
        instruction.effect? signature? = some effect ∧ target ∈ node.successors position instruction := by
  constructor
  · intro flows
    cases flows with
    | @onward instruction here passes inside =>
      refine ⟨inside, instruction, ?_⟩
      cases instruction with
      | callFunction name =>
        obtain ⟨signature, known⟩ := Option.isSome_iff_exists.mp passes
        exact ⟨_, here, congrArg (Option.map _) known, List.mem_singleton_self _⟩
      | jumpIfFalse label => exact ⟨_, here, rfl, List.mem_cons_self⟩
      | jumpTo | jump | stop | runNode => cases passes
      | _ => exact ⟨_, here, rfl, List.mem_singleton_self _⟩
    | jump here found =>
      exact ⟨found.inside, _, _, here, rfl, Option.mem_toList.mpr (firstLabel_iff.mp found)⟩
    | branch here found =>
      exact ⟨found.inside, _, _, here, rfl, List.mem_cons_of_mem _ (Option.mem_toList.mpr (firstLabel_iff.mp found))⟩
  · rintro ⟨inside, instruction, effect, here, known, follows⟩
    cases instruction with
    | jumpTo label => exact .jump here (firstLabel_iff.mpr (Option.mem_toList.mp follows))
    | jumpIfFalse label =>
      rcases List.mem_cons.mp follows with rfl | found
      · exact .onward here rfl inside
      · exact .branch here (firstLabel_iff.mpr (Option.mem_toList.mp found))
    | jump | stop | runNode => cases follows
    | callFunction name =>
      obtain ⟨signature, found, _⟩ := Option.map_eq_some_iff.mp known
      cases List.mem_singleton.mp follows
      exact .onward here (Option.isSome_iff_exists.mpr ⟨signature, found⟩) inside
    | _ =>
      cases List.mem_singleton.mp follows
      exact .onward here rfl inside

theorem Path.inside {passed : List Nat} (path : node.Path signature? passed position) :
    position < node.instructions.length := by
  cases path with
  | start inside => exact inside
  | step _ flows => exact (flows_iff.mp flows).1

theorem heightAfter_cons {instruction : Instruction} {effect : Effect} (passed : List Nat)
    (here : node.instructions[position]? = some instruction) (known : instruction.effect? signature? = some effect) :
    node.heightAfter signature? (position :: passed) =
      node.heightAfter signature? passed + (effect.pushes - effect.pops) := by
  have changes : node.change signature? position = effect.pushes - effect.pops := by
    simp only [change, here, Option.bind_some, known]
  rw [heightAfter, changes]

end Flow

/-- The loop of the worklist, told by its passes: how many it makes from these heights and entries, and what it ends
with. Each pass takes the latest entry. -/
inductive Passes (node : Node) (signature? : Signatures) :
    Nat → Heights → List (Nat × Nat) → Except (Nat × Violation) Heights → Prop
  | done (heights : Heights) : Passes node signature? 0 heights [] (.ok heights)
  | settled {passes position height : Nat} {heights : Heights} {others : List (Nat × Nat)}
      {result : Except (Nat × Violation) Heights}
      (settled : position < heights.length → heights[position]? = some (some height))
      (rest : Passes node signature? passes heights others result) :
      Passes node signature? (passes + 1) heights ((position, height) :: others) result
  | differs {position height seen : Nat} {heights : Heights} (others : List (Nat × Nat))
      (recorded : heights[position]? = some (some seen)) (differs : seen ≠ height) :
      Passes node signature? 1 heights ((position, height) :: others) (.error (position, .heightMismatch seen height))
  | short {position height : Nat} {heights : Heights} {instruction : Instruction} {effect : Effect}
      (others : List (Nat × Nat)) (unseen : heights[position]? = some none)
      (here : node.instructions[position]? = some instruction) (known : instruction.effect? signature? = some effect)
      (short : height < effect.pops) : Passes node signature? 1 heights ((position, height) :: others)
        (.error (position, .underflow instruction effect.pops height))
  | ends {passes position height : Nat} {heights : Heights} {others : List (Nat × Nat)}
      {result : Except (Nat × Violation) Heights} (unseen : heights[position]? = some none)
      (unknown : node.instructions[position]?.bind (Instruction.effect? signature?) = none)
      (rest : Passes node signature? passes (heights.set position (some height)) others result) :
      Passes node signature? (passes + 1) heights ((position, height) :: others) result
  | visits {passes position height : Nat} {heights : Heights} {others : List (Nat × Nat)}
      {result : Except (Nat × Violation) Heights} {instruction : Instruction} {effect : Effect}
      (unseen : heights[position]? = some none) (here : node.instructions[position]? = some instruction)
      (known : instruction.effect? signature? = some effect) (enough : effect.pops ≤ height)
      (rest : Passes node signature? passes (heights.set position (some height))
        (((node.successors position instruction).map fun target =>
          (target, height - effect.pops + effect.pushes)).reverse ++ others) result) :
      Passes node signature? (passes + 1) heights ((position, height) :: others) result

theorem length_successors_le (node : Node) (position : Nat) (instruction : Instruction) :
    (node.successors position instruction).length ≤ 2 := by
  have single (found : Option Nat) : found.toList.length ≤ 1 := by cases found <;> simp
  cases instruction with
  | jumpTo label => exact Nat.le_succ_of_le (single _)
  | jumpIfFalse label => exact Nat.succ_le_succ (single _)
  | jump | stop | runNode => exact Nat.zero_le 2
  | _ => exact Nat.le_succ 1

/-- The loop comes to its end. A pass either takes an entry away or records a height for good, and then adds two entries
at most. -/
theorem explore_passes (node : Node) (signature? : Signatures) (heights : Heights) (reached : List (Nat × Nat)) :
    ∃ passes ≤ 2 * heights.count none + reached.length,
      node.Passes signature? passes heights reached (node.explore signature? heights reached) := by
  fun_induction node.explore signature? heights reached with
  | case1 heights => exact ⟨0, Nat.zero_le _, .done heights⟩
  | case2 heights position height others outside ih =>
    obtain ⟨passes, bound, rest⟩ := ih
    have settled : position < heights.length → heights[position]? = some (some height) := fun inside =>
      absurd (List.getElem?_eq_none_iff.mp outside) (Nat.not_le.mpr inside)
    exact ⟨passes + 1, Nat.succ_le_succ bound, .settled settled rest⟩
  | case3 heights position others height recorded ih =>
    obtain ⟨passes, bound, rest⟩ := ih
    exact ⟨passes + 1, Nat.succ_le_succ bound, .settled (fun _ => recorded) rest⟩
  | case4 heights position height others seen recorded differs =>
    exact ⟨1, by rw [List.length_cons]; omega, .differs others recorded differs⟩
  | case5 heights position height others unseen fewer visited beyond ih =>
    obtain ⟨passes, bound, rest⟩ := ih
    have fewer : visited.count none < heights.count none := fewer
    refine ⟨passes + 1, ?_, .ends unseen (by rw [beyond]; rfl) rest⟩
    rw [List.length_cons]
    omega
  | case6 heights position height others unseen fewer visited instruction here unknown ih =>
    obtain ⟨passes, bound, rest⟩ := ih
    have fewer : visited.count none < heights.count none := fewer
    refine ⟨passes + 1, ?_, .ends unseen (by rw [here]; exact unknown) rest⟩
    rw [List.length_cons]
    omega
  | case7 heights position height others unseen fewer instruction here effect known short =>
    exact ⟨1, by rw [List.length_cons]; omega, .short others unseen here known short⟩
  | case8 heights position height others unseen fewer visited instruction here effect known enough next ih =>
    obtain ⟨passes, bound, rest⟩ := ih
    have fewer : visited.count none < heights.count none := fewer
    have added : next.length ≤ 2 := by
      rw [List.length_map]
      exact node.length_successors_le position instruction
    refine ⟨passes + 1, ?_, .visits unseen here known (Nat.le_of_not_lt enough) rest⟩
    rw [List.length_append, List.length_reverse] at bound
    rw [List.length_cons]
    omega

section Accepted

variable {node : Node} {signature? : Signatures} {final : Heights}

/-- The recorded heights are those of all paths. -/
theorem heights_of_path (found : node.heights signature? = .ok final) {passed : List Nat} {position : Nat}
    (path : node.Path signature? passed position) :
    ∃ height : Nat, final[position]? = some (some height) ∧ node.heightAfter signature? passed = height := by
  induction path with
  | start inside => exact ⟨0, heights_start found (List.getElem?_eq_getElem inside), rfl⟩
  | @step passed position target path flows ih =>
    obtain ⟨height, recorded, arrives⟩ := ih
    obtain ⟨inside, instruction, effect, here, known, follows⟩ := flows_iff.mp flows
    have enough := heights_enough found recorded here known
    refine ⟨_, heights_successor found recorded here known follows (List.getElem?_eq_getElem inside), ?_⟩
    rw [heightAfter_cons passed here known, arrives]
    omega

theorem pathsFit_of_heights (found : node.heights signature? = .ok final) : node.PathsFit signature? where
  enough := by
    intro passed position instruction effect path here known
    obtain ⟨height, recorded, arrives⟩ := heights_of_path found path
    rw [arrives]
    exact Int.ofNat_le.mpr (heights_enough found recorded here known)
  agree := by
    intro passed others position path other
    obtain ⟨height, recorded, arrives⟩ := heights_of_path found path
    obtain ⟨_, same, arrivesToo⟩ := heights_of_path found other
    rw [recorded] at same
    cases same
    rw [arrives, arrivesToo]

end Accepted

section Refused

variable {node : Node} {signature? : Signatures} {heights : Heights} {reached : List (Nat × Nat)}

/-- Some path arrives at the position with this height. -/
def Arrives (node : Node) (signature? : Signatures) (position height : Nat) : Prop :=
  ∃ passed, node.Path signature? passed position ∧ node.heightAfter signature? passed = height

/-- The heights that are recorded and those that are still to be looked at are heights of paths. -/
structure Traced (node : Node) (signature? : Signatures) (heights : Heights) (reached : List (Nat × Nat)) : Prop where
  length : heights.length = node.instructions.length
  recorded : ∀ {position height : Nat}, heights[position]? = some (some height) →
    node.Arrives signature? position height
  waiting : ∀ {position height : Nat}, (position, height) ∈ reached → position < node.instructions.length →
    node.Arrives signature? position height

theorem Traced.drop {entry : Nat × Nat} (traced : node.Traced signature? heights (entry :: reached)) :
    node.Traced signature? heights reached :=
  ⟨traced.length, traced.recorded, fun member => traced.waiting (List.mem_cons_of_mem entry member)⟩

theorem Traced.record {position height : Nat} {added : List (Nat × Nat)}
    (traced : node.Traced signature? heights ((position, height) :: reached))
    (inside : position < node.instructions.length)
    (follows : ∀ target next, (target, next) ∈ added → target < node.instructions.length →
      node.Arrives signature? target next) :
    node.Traced signature? (heights.set position (some height)) (added ++ reached) where
  length := by rw [List.length_set, traced.length]
  recorded := by
    intro other found known
    by_cases same : position = other
    · subst same
      rw [List.getElem?_set_self (traced.length ▸ inside)] at known
      cases known
      exact traced.waiting List.mem_cons_self inside
    · rw [List.getElem?_set_ne same] at known
      exact traced.recorded known
  waiting := by
    intro target next member bound
    rcases List.mem_append.mp member with new | old
    · exact follows target next new bound
    · exact traced.waiting (List.mem_cons_of_mem _ old) bound

theorem Traced.unseen_inside {position : Nat} (traced : node.Traced signature? heights reached)
    (unseen : heights[position]? = some none) : position < node.instructions.length :=
  traced.length ▸ (List.getElem?_eq_some_iff.mp unseen).1

/-- An instruction of known effect that is not short of values hands its height on along every edge. -/
theorem Arrives.follow {position height target : Nat} {instruction : Instruction} {effect : Effect}
    (arrives : node.Arrives signature? position height) (here : node.instructions[position]? = some instruction)
    (known : instruction.effect? signature? = some effect) (enough : effect.pops ≤ height)
    (follows : target ∈ node.successors position instruction) (inside : target < node.instructions.length) :
    node.Arrives signature? target (height - effect.pops + effect.pushes) := by
  obtain ⟨passed, path, finds⟩ := arrives
  refine ⟨position :: passed, .step path (flows_iff.mpr ⟨inside, instruction, effect, here, known, follows⟩), ?_⟩
  rw [heightAfter_cons passed here known, finds]
  omega

/-- What makes the worklist give up is shown by paths. -/
theorem Passes.shown {passes position : Nat} {violation : Violation} {result : Except (Nat × Violation) Heights}
    (ran : node.Passes signature? passes heights reached result) (traced : node.Traced signature? heights reached)
    (failed : result = .error (position, violation)) : node.Shown signature? position violation := by
  induction ran with
  | done => cases failed
  | settled settled rest ih => exact ih traced.drop failed
  | differs others recorded differs =>
    cases failed
    obtain ⟨passed, path, sees⟩ := traced.recorded recorded
    obtain ⟨_, other, finds⟩ := traced.waiting List.mem_cons_self path.inside
    exact .mismatch path other sees finds differs
  | short others unseen here known short =>
    cases failed
    obtain ⟨passed, path, finds⟩ := traced.waiting List.mem_cons_self (traced.unseen_inside unseen)
    exact .underflow path here known finds short
  | @ends passes position height heights others result unseen unknown rest ih =>
    have next : node.Traced signature? (heights.set position (some height)) ([] ++ others) :=
      traced.record (traced.unseen_inside unseen) (by simp)
    exact ih next failed
  | visits unseen here known enough rest ih =>
    have inside := traced.unseen_inside unseen
    refine ih (traced.record inside fun target next member bound => ?_) failed
    obtain ⟨_, follows, same⟩ := List.mem_map.mp (List.mem_reverse.mp member)
    cases same
    exact (traced.waiting List.mem_cons_self inside).follow here known enough follows bound

theorem shown_of_heights {position : Nat} {violation : Violation}
    (failed : node.heights signature? = .error (position, violation)) : node.Shown signature? position violation := by
  obtain ⟨passes, _, ran⟩ := node.explore_passes signature? (node.instructions.map fun _ => none) [(0, 0)]
  refine ran.shown ⟨List.length_map _, fun recorded => absurd recorded (node.unrecorded _ _), ?_⟩ failed
  intro position height member inside
  cases List.mem_singleton.mp member
  exact ⟨[], .start inside, rfl⟩

theorem PathsFit.not_shown (fit : node.PathsFit signature?) {position : Nat} {violation : Violation} :
    ¬node.Shown signature? position violation := by
  intro shown
  cases shown with
  | mismatch path other sees finds differs =>
    have same := fit.agree path other
    rw [sees, finds] at same
    exact differs (Int.ofNat_inj.mp same)
  | underflow path here known finds short =>
    have enough := fit.enough path here known
    rw [finds] at enough
    exact absurd (Int.ofNat_le.mp enough) (Nat.not_le_of_lt short)

end Refused

/-- The heights are found just if all paths fit. -/
theorem heights_eq_ok {node : Node} {signature? : Signatures} :
    (∃ heights, node.heights signature? = .ok heights) ↔ node.PathsFit signature? := by
  constructor
  · rintro ⟨heights, found⟩
    exact pathsFit_of_heights found
  · intro fit
    cases result : node.heights signature? with
    | ok heights => exact ⟨heights, rfl⟩
    | error found => exact absurd (shown_of_heights result) fit.not_shown

theorem resolved_iff {node : Node} {strings : List String} :
    (∀ instruction ∈ node.instructions, node.danglingReference? strings instruction = none) ↔ node.Resolved strings := by
  simp only [danglingReference?_eq_none]
  constructor
  · intro clean
    refine ⟨fun label jumps => ?_, fun index refers => ?_⟩
    · rcases jumps with jump | branch
      · exact (clean _ jump).1 label rfl
      · exact (clean _ branch).1 label rfl
    · rcases refers with line | pushed | ⟨destination, option⟩
      · exact (clean _ line).2 index rfl
      · exact (clean _ pushed).2 index rfl
      · exact (clean _ option).2 index rfl
  · intro resolved instruction member
    refine ⟨fun label aimed => ?_, fun index read => ?_⟩
    · cases instruction with
      | jumpTo => cases aimed; exact resolved.labels label (.inl member)
      | jumpIfFalse => cases aimed; exact resolved.labels label (.inr member)
      | _ => cases aimed
    · cases instruction with
      | runLine => cases read; exact resolved.texts index (.inl member)
      | pushString => cases read; exact resolved.texts index (.inr (.inl member))
      | addOption _ destination => cases read; exact resolved.texts index (.inr (.inr ⟨destination, member⟩))
      | _ => cases read

/-- The check decides a condition on paths, and comes to an end on every node. Its loop makes no more passes than twice
the number of instructions and one. It accepts a node just if all that is referred to is there and all paths fit; and
where it refuses one for its heights, paths to the place that it names show the violation. -/
theorem check_decides_paths (node : Node) (strings : List String) (signature? : Signatures) :
    (∃ passes ≤ 2 * node.instructions.length + 1, node.Passes signature? passes
      (node.instructions.map fun _ => none) [(0, 0)] (node.heights signature?)) ∧
    (node.check strings signature? = .ok () ↔ node.Resolved strings ∧ node.PathsFit signature?) ∧
    ∀ error, node.check strings signature? = .error error → error.node = node.name ∧
      ((∃ label, error.violation = .unknownLabel label) ∨ (∃ index, error.violation = .stringIndex index) ∨
        node.Shown signature? error.position error.violation) := by
  refine ⟨?_, ?_, fun error failed => ?_⟩
  · obtain ⟨passes, bound, ran⟩ := node.explore_passes signature? (node.instructions.map fun _ => none) [(0, 0)]
    refine ⟨passes, Nat.le_trans bound (Nat.succ_le_succ ?_), ran⟩
    have all := List.count_le_length (a := none) (l := node.instructions.map fun _ => (none : Option Nat))
    rw [List.length_map] at all
    exact Nat.mul_le_mul_left 2 all
  · rw [check_eq_ok, resolved_iff, heights_eq_ok]
  · obtain ⟨position, violation, rfl, dangles | found⟩ := eq_of_check_error failed
    · rcases reference_of_firstDangling? dangles with label | index
      · exact ⟨rfl, .inl label⟩
      · exact ⟨rfl, .inr (.inl index)⟩
    · exact ⟨rfl, .inr (.inr (shown_of_heights found))⟩

section Turnstile

/-- A node that goes round until it is let out; every round puts a condition on the stack and takes it off. -/
def turnstile : Node :=
  ⟨"Turnstile", [], [.label "top", .pushBool false, .jumpIfFalse "out", .pop, .jumpTo "top", .label "out", .pop]⟩

/-- The same node, but with a way out that leads round again and leaves the condition on the stack. -/
def jammed : Node :=
  ⟨"Turnstile", [],
    [.label "top", .pushBool false, .jumpIfFalse "out", .pop, .jumpTo "top", .label "out", .jumpTo "top"]⟩

theorem turnstile_round : turnstile.Path noSignatures [4, 3, 2, 1, 0] 0 := by
  have top : turnstile.FirstLabel "top" 0 := ⟨rfl, by simp⟩
  have start : turnstile.Path noSignatures [] 0 := .start (by decide)
  have pushed : turnstile.Path noSignatures [0] 1 := start.step (.onward rfl rfl (by decide))
  have asked : turnstile.Path noSignatures [1, 0] 2 := pushed.step (.onward rfl rfl (by decide))
  have held : turnstile.Path noSignatures [2, 1, 0] 3 := asked.step (.onward rfl rfl (by decide))
  have popped : turnstile.Path noSignatures [3, 2, 1, 0] 4 := held.step (.onward rfl rfl (by decide))
  exact popped.step (.jump rfl top)

/-- Both nodes go round in circles. The check accepts the first one, and finds the path that jams the second one. -/
theorem check_decides_paths_turnstile :
    turnstile.check [] noSignatures = .ok () ∧ turnstile.Path noSignatures [4, 3, 2, 1, 0] 0 ∧
      turnstile.Resolved [] ∧ turnstile.PathsFit noSignatures ∧
      jammed.check [] noSignatures = .error ⟨"Turnstile", 0, .heightMismatch 0 1⟩ ∧
      jammed.Shown noSignatures 0 (.heightMismatch 0 1) := by
  obtain ⟨_, decides, _⟩ := turnstile.check_decides_paths [] noSignatures
  obtain ⟨_, _, shows⟩ := jammed.check_decides_paths [] noSignatures
  have heights : turnstile.heights noSignatures = .ok ([0, 0, 1, 1, 0, 1, 1].map some) := by cbv
  have mismatch : jammed.heights noSignatures = .error (0, .heightMismatch 0 1) := by cbv
  have clean : jammed.firstDangling? [] 0 jammed.instructions = none := rfl
  have accepted : turnstile.check [] noSignatures = .ok () := check_eq_ok.mpr ⟨by decide, _, heights⟩
  have refused : jammed.check [] noSignatures = .error ⟨"Turnstile", 0, .heightMismatch 0 1⟩ := by
    simp only [check, clean, mismatch]
    rfl
  obtain ⟨resolved, fit⟩ := decides.mp accepted
  obtain ⟨_, ⟨_, label⟩ | ⟨_, index⟩ | shown⟩ := shows _ refused
  · cases label
  · cases index
  · exact ⟨accepted, turnstile_round, resolved, fit, refused, shown⟩

end Turnstile

end Node

end Dialogue
