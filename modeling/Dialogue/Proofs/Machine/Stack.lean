import Dialogue.Proofs.Machine.Prompt

/-!
The stack stays within its bound. A limit measures it before an instruction runs, as the instruction would leave it,
so nothing that runs can pass the bound; and a machine that waits was measured with the destination that it is owed,
so the choice of the host cannot pass it either.
-/

namespace Dialogue

variable {σ : Type}

namespace Machine

/-- The values that the stack will hold when the machine goes on: one that waits is owed a destination. -/
def height (machine : Machine) : Nat := machine.stack.length + if machine.status = .waiting then 1 else 0

theorem height_of_free {machine : Machine} (free : machine.status ≠ .waiting) :
    machine.height = machine.stack.length := by
  rw [height, if_neg free, Nat.add_zero]

theorem height_of_waiting {machine : Machine} (waiting : machine.status = .waiting) :
    machine.height = machine.stack.length + 1 := by
  rw [height, if_pos waiting]

theorem stack_le_height (machine : Machine) : machine.stack.length ≤ machine.height := Nat.le_add_right _ _

/-- A machine that does not wait stays within any bound that its stack has kept. -/
theorem bounded_of_free {machine other : Machine} {bound : Nat} (bounded : machine.height ≤ bound)
    (free : other.status ≠ .waiting) (stack : other.stack = machine.stack) : other.height ≤ bound := by
  rw [height_of_free free, stack]
  exact Nat.le_trans machine.stack_le_height bounded

section Bound

variable {machine : Machine} {stage : Stage} {instruction : Instruction}

/-- What the limits let through fits, if its effect is known. -/
theorem fits_of_allowed {effect : Effect} (allowed : machine.limitFault? stage instruction = none)
    (known : instruction.effect? stage.signatures = some effect) :
    machine.stack.length - effect.pops + effect.pushes ≤ stage.limits.maxStackSize := by
  simpa only [known, Option.getD_some] using (limitFault?_eq_none.mp allowed).2

variable [VariableStore σ] {store : σ} {node : Node} {response : Response σ Flow}

/-- Only an instruction that lets control fall through may leave more on the stack. -/
theorem Executes.stack_le (executed : machine.Executes store stage node instruction response)
    (turns : response.result ≠ .ok .advance) : response.machine.stack.length ≤ machine.stack.length := by
  cases executed with
  | callFailed => simp
  | refused | jumped | jumpedDynamically | lost | stopped | nothingShown | prompted => exact Nat.le_refl _
  | entered => exact Nat.zero_le _
  | _ => exact absurd rfl turns

/-- An instruction that the limits let through leaves the stack within its bound, the destination that it may be
owed included. An instruction of unknown effect fails, so that the measure taken for it does not matter. -/
theorem Executes.height_le (executed : machine.Executes store stage node instruction response)
    (allowed : machine.limitFault? stage instruction = none) (free : machine.status ≠ .waiting)
    (bounded : machine.stack.length ≤ stage.limits.maxStackSize) :
    response.machine.height ≤ stage.limits.maxStackSize := by
  by_cases suspends : response.result = .ok .suspended
  · obtain ⟨rfl, _, _, texts, _, rfl⟩ := executed.suspended_response suspends
    exact fits_of_allowed allowed rfl
  · rw [height_of_free (executed.free suspends free)]
    by_cases advances : response.result = .ok .advance
    · obtain ⟨effect, known, changed, _⟩ := executed.advance_height advances
      rw [changed]
      exact fits_of_allowed allowed known
    · exact Nat.le_trans (executed.stack_le advances) bounded

omit [VariableStore σ] in
/-- Settling leaves the stack alone and makes no machine wait. -/
theorem settle_height_le (response : Response σ Flow) (program : Program) :
    (response.settle program).machine.height ≤ response.machine.height := by
  obtain ⟨position, status, told, settled, same | stopped, _⟩ := response.settle_eq program
  · rw [settled, same]
    exact Nat.le_refl _
  · rw [settled, stopped]
    exact bounded_of_free (Nat.le_refl _) (by simp) rfl

theorem step_bounded (bounded : machine.height ≤ stage.limits.maxStackSize) (store : σ) :
    (machine.step store stage).machine.height ≤ stage.limits.maxStackSize := by
  have steps := machine.step_steps store stage
  generalize machine.step store stage = response at steps
  cases steps with
  | waits => exact bounded
  | nowhere | finishes | limited => exact bounded_of_free bounded (by simp) rfl
  | executes free current here allowed executed =>
    have within := executed.height_le allowed machine.counted_free (Nat.le_trans machine.stack_le_height bounded)
    exact Nat.le_trans (settle_height_le _ _) within

variable {bound : Nat}

theorem selectNode_bounded (bounded : machine.height ≤ bound) (program : Program) (name : String) :
    (machine.selectNode program name).1.height ≤ bound := by
  have free := machine.selectNode_free program name
  cases known : program.hasNode name with
  | true =>
    rw [height_of_free free, selectNode_known known]
    exact Nat.zero_le bound
  | false => exact bounded_of_free bounded free (by rw [selectNode_unknown known])

/-- A choice pushes the destination that the machine was owed. -/
theorem selectOption_bounded (bounded : machine.height ≤ bound) {handle : Handle} {index : Nat} {chosen : Machine}
    (accepted : machine.selectOption handle index = .ok chosen) : chosen.height ≤ bound := by
  obtain ⟨waiting, _, choice, _, rfl⟩ := selectOption_ok accepted
  rwa [height_of_waiting waiting] at bounded

theorem stop_bounded (bounded : machine.height ≤ bound) : machine.stop.height ≤ bound :=
  bounded_of_free bounded (by simp [stop]) rfl

end Bound

end Machine

namespace History

variable [VariableStore σ] {stage : Stage} {moments : List (Moment σ)} {machine : Machine}

theorem bounded (history : History stage moments machine) : machine.height ≤ stage.limits.maxStackSize := by
  refine history.invariant (motive := fun machine => machine.height ≤ stage.limits.maxStackSize) (Nat.zero_le _)
    (fun bounded => Machine.selectNode_bounded bounded stage.program) ?_
    (fun bounded accepted => Machine.selectOption_bounded bounded accepted) Machine.stop_bounded
  intro machine bounded store present alike
  rw [← alike.limits] at bounded ⊢
  exact Machine.step_bounded bounded store

/-- Whatever the host does, the stack never holds more values than it may, and strictly fewer while the machine waits
for the choice whose destination it will push. -/
theorem stack_bounded (history : History stage moments machine) :
    machine.stack.length ≤ stage.limits.maxStackSize ∧
      (machine.status = .waiting → machine.stack.length < stage.limits.maxStackSize) := by
  have bounded := history.bounded
  refine ⟨Nat.le_trans machine.stack_le_height bounded, fun waiting => ?_⟩
  rwa [Machine.height_of_waiting waiting] at bounded

end History

section Quay

/-- The stage of the quay with room for the one value that is needed there. -/
def narrowStage : Stage := { quayStage with limits := ⟨none, 1⟩ }

theorem stack_bounded_quayMachine :
    ∃ moments : List (Moment Storage), History narrowStage moments quayMachine ∧ quayMachine.status = .waiting ∧
      quayMachine.stack.length ≤ 1 ∧ quayMachine.stack.length < 1 := by
  have selected := (History.new (σ := Storage)).call .empty (.refl narrowStage) 0 (.selectNode "Quay")
  have asked := selected.call .empty (.refl narrowStage) 9 .run
  obtain ⟨within, fewer⟩ := History.stack_bounded asked
  exact ⟨_, asked, rfl, within, fewer rfl⟩

end Quay

end Dialogue
