import Dialogue.Operators
import Dialogue.Proofs.Check.Paths

/-!
What the check makes of the functions that it knows. A call of a function that is not known ends its path, so the less
is known the fewer paths there are, and those that are left have their old heights. A program that is accepted stays
accepted when functions are forgotten, be it all of them.
-/

namespace Dialogue

/-- Whatever the others know of a function is known here, too, and is the same. -/
def Signatures.Extends (more known : Signatures) : Prop :=
  ∀ name signature, known name = some signature → more name = some signature

theorem Signatures.extends_noSignatures (any : Signatures) : any.Extends noSignatures := by
  rintro name signature ⟨⟩

namespace Node

variable {node : Node} {known more : Signatures} {passed : List Nat} {position target : Nat}

section Extends

variable (wider : more.Extends known)

include wider

theorem effect?_of_extends {instruction : Instruction} {effect : Effect}
    (knows : instruction.effect? known = some effect) : instruction.effect? more = some effect := by
  cases instruction with
  | callFunction name =>
    obtain ⟨signature, found, same⟩ := Option.map_eq_some_iff.mp knows
    exact Option.map_eq_some_iff.mpr ⟨signature, wider name signature found, same⟩
  | _ => exact knows

theorem Flows.extends (flows : node.Flows known position target) : node.Flows more position target := by
  obtain ⟨inside, instruction, effect, here, knows, follows⟩ := flows_iff.mp flows
  exact flows_iff.mpr ⟨inside, instruction, effect, here, effect?_of_extends wider knows, follows⟩

theorem Path.extends (path : node.Path known passed position) : node.Path more passed position := by
  induction path with
  | start inside => exact .start inside
  | step _ flows ih => exact ih.step (flows.extends wider)

/-- Everything that a path has passed is known, so its height does not depend on what else is. -/
theorem Path.heightAfter_extends (path : node.Path known passed position) :
    node.heightAfter more passed = node.heightAfter known passed := by
  induction path with
  | start => rfl
  | @step passed position target _ flows ih =>
    obtain ⟨_, instruction, effect, here, knows, _⟩ := flows_iff.mp flows
    rw [heightAfter_cons passed here (effect?_of_extends wider knows), heightAfter_cons passed here knows, ih]

/-- Paths that fit go on fitting when functions are forgotten. -/
theorem PathsFit.forget (fit : node.PathsFit more) : node.PathsFit known where
  enough := by
    intro passed position instruction effect path here knows
    rw [← path.heightAfter_extends wider]
    exact fit.enough (path.extends wider) here (effect?_of_extends wider knows)
  agree := by
    intro passed others position path other
    rw [← path.heightAfter_extends wider, ← other.heightAfter_extends wider]
    exact fit.agree (path.extends wider) (other.extends wider)

theorem check_forget {strings : List String} (accepted : node.check strings more = .ok ()) :
    node.check strings known = .ok () := by
  obtain ⟨clean, found⟩ := check_eq_ok.mp accepted
  exact check_eq_ok.mpr ⟨clean, heights_eq_ok.mpr ((heights_eq_ok.mp found).forget wider)⟩

end Extends

end Node

namespace Library

/-- A function under a new name adds to what is known. -/
theorem extends_register {library : Library} {function : Function} (fresh : library.find? function.name = none) :
    (library.register function).signatures.Extends library.signatures := by
  intro name signature knows
  have other : name ≠ function.name := by
    rintro rfl
    unfold signatures at knows
    rw [fresh] at knows
    cases knows
  unfold signatures
  rw [library.find?_register_other function other]
  exact knows

end Library

namespace Program

theorem check_forget {program : Program} {known more : Signatures} (wider : more.Extends known)
    (accepted : program.check more = .ok ()) : program.check known = .ok () :=
  check_eq_ok.mpr fun node member => Node.check_forget wider (check_eq_ok.mp accepted node member)

/-- Knowing more functions makes the check stricter, and it is least strict where none is known. -/
theorem check_antitone (program : Program) :
    (∀ known more : Signatures, more.Extends known → program.check more = .ok () → program.check known = .ok ()) ∧
      ∀ any : Signatures, program.check any = .ok () → program.check noSignatures = .ok () :=
  ⟨fun _ _ wider => check_forget wider, fun any => check_forget any.extends_noSignatures⟩

section Toast

/-- A node that counts in circles and ends with a call of a function of the host. -/
def toastNode : Node :=
  ⟨"Toast", [], [.label "top", .pushVariable "$glasses", .pushNumber ⟨0x3ff0000000000000⟩, .callFunction "Add",
    .jumpIfFalse "out", .pop, .jumpTo "top", .label "out", .callFunction "Toast", .pop]⟩

def toasts : Program := ⟨"toasts", [], [toastNode], List.pairwise_singleton _ _⟩

/-- The operators, and a function of that many arguments to raise a glass with. -/
def toastLibrary (arity : Nat) : Library :=
  Operators.library.register (.returning "Toast" arity fun _ => .ok .null)

/-- Only one value is left when it comes to the toast. -/
theorem heights_toastNode (arity : Nat) :
    toastNode.heights (toastLibrary arity).signatures =
      if 1 < arity then .error (8, .underflow (.callFunction "Toast") arity 1)
      else .ok ([0, 0, 1, 2, 1, 1, 0, 1, 1, 1 - arity + 1].map some) := by
  have add : (toastLibrary arity).signatures "Add" = some ⟨2, true⟩ := rfl
  have toast : (toastLibrary arity).signatures "Toast" = some ⟨arity, true⟩ := rfl
  have top : toastNode.labelIndex? "top" = some 0 := rfl
  have out : toastNode.labelIndex? "out" = some 7 := rfl
  have listed : toastNode.instructions = [.label "top", .pushVariable "$glasses",
    .pushNumber ⟨0x3ff0000000000000⟩, .callFunction "Add", .jumpIfFalse "out", .pop, .jumpTo "top", .label "out",
    .callFunction "Toast", .pop] := rfl
  simp [Node.heights, Node.explore_nil, Node.explore_unseen, Node.explore_seen, Node.explore_outside, Node.successors,
    Instruction.effect?, listed, add, toast, top, out]

theorem check_toasts (arity : Nat) :
    toasts.check (toastLibrary arity).signatures =
      if 1 < arity then .error ⟨"Toast", 8, .underflow (.callFunction "Toast") arity 1⟩ else .ok () := by
  have clean : toastNode.firstDangling? [] 0 toastNode.instructions = none := rfl
  show (toastNode.check [] (toastLibrary arity).signatures).bind (fun _ => .ok ()) = _
  unfold Node.check
  rw [clean, heights_toastNode]
  by_cases many : 1 < arity
  · simp only [many, if_true]
    rfl
  · simp only [many, if_false]
    rfl

/-- With one argument the toast passes, so it passes unknown and where nothing is known; with two it does not. -/
theorem check_antitone_toasts :
    (toastLibrary 1).signatures.Extends Operators.library.signatures ∧
      toasts.check (toastLibrary 1).signatures = .ok () ∧ toasts.check Operators.library.signatures = .ok () ∧
      toasts.check noSignatures = .ok () ∧
      toasts.check (toastLibrary 2).signatures = .error ⟨"Toast", 8, .underflow (.callFunction "Toast") 2 1⟩ := by
  obtain ⟨forget, forgetAll⟩ := toasts.check_antitone
  have wider : (toastLibrary 1).signatures.Extends Operators.library.signatures :=
    Library.extends_register (by decide +kernel)
  have accepted : toasts.check (toastLibrary 1).signatures = .ok () := check_toasts 1
  exact ⟨wider, accepted, forget _ _ wider accepted, forgetAll _ accepted, check_toasts 2⟩

end Toast

end Program

end Dialogue
