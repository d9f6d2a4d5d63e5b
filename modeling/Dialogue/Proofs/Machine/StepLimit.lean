import Mathlib.Data.List.TakeWhile
import Dialogue.Proofs.Machine.Options

/-!
What a limit on steps is good for. The machine counts every step that gets as far as an instruction, and nothing but a
selection of a node takes the count back. So the limit bounds the instructions that are executed between two selections,
whatever the host does there, and it ends every run, however often the program goes round in circles.
-/

namespace Dialogue

variable {σ : Type}

namespace Moment

/-- Whether the host selects a node, be it known or not. -/
def selects (moment : Moment σ) : Bool :=
  match moment.call with
  | .selectNode _ => true
  | _ => false

/-- Whether a step gets as far as an instruction, which a limit may still refuse. -/
def counts (moment : Moment σ) : Bool :=
  moment.call = .step && moment.machine.status ≠ .waiting && moment.instruction?.isSome

/-- Whether an instruction is executed, be it with success or not. -/
def executes (moment : Moment σ) : Bool :=
  moment.counts && moment.instruction?.all fun instruction =>
    moment.machine.counted.limitFault? moment.stage instruction = none

end Moment

namespace Machine

section Step

variable {machine : Machine} {stage : Stage} {instruction : Instruction}

variable [VariableStore σ]

theorem Executes.steps_eq {store : σ} {node : Node} {response : Response σ Flow}
    (executed : machine.Executes store stage node instruction response) : response.machine.steps = machine.steps := by
  cases executed <;> rfl

/-- A step counts once if it gets as far as an instruction, and not at all otherwise. -/
theorem step_count (machine : Machine) (store : σ) (stage : Stage) :
    (machine.step store stage).machine.steps =
      machine.steps + if (⟨machine, store, stage, .step⟩ : Moment σ).counts then 1 else 0 := by
  have steps := machine.step_steps store stage
  generalize machine.step store stage = response at steps
  cases steps with
  | waits waiting => simp [Moment.counts, waiting]
  | nowhere free absent => simp [Moment.counts, Moment.instruction?, absent]
  | finishes free current beyond => simp [Moment.counts, Moment.instruction?, current, beyond]
  | limited free current here => simp [Moment.counts, Moment.instruction?, free, current, here, counted]
  | executes free current here allowed executed =>
    obtain ⟨position, status, told, settled, _⟩ := Response.settle_eq _ stage.program
    rw [settled]
    show _ = machine.steps + _
    rw [executed.steps_eq]
    simp [Moment.counts, Moment.instruction?, free, current, here, counted]

end Step

section Run

variable [VariableStore σ] {machine : Machine} {stage : Stage} {bound : Nat}
  (limit : stage.limits.maxSteps = some bound)

include limit

end Run

/-- How a run may end: with an error, with the completion of a node or with a prompt. -/
def Ends (response : Response σ (Option Status)) : Prop :=
  (∃ fault, response.result = .error fault) ∨
    (response.result = .ok (some .stopped) ∧ response.events.getLast? = some .complete) ∨
      response.result = .ok (some .waiting) ∧ ∃ texts handle, response.events.getLast? = some (.options texts handle)

end Machine

section History

variable [VariableStore σ]

/-- The moments since the host selected a node last, the latest first. -/
def sinceSelected (moments : List (Moment σ)) : List (Moment σ) := moments.takeWhile fun moment => !moment.selects

omit [VariableStore σ] in
theorem sinceSelected_cons (moment : Moment σ) (moments : List (Moment σ)) :
    sinceSelected (moment :: moments) = if moment.selects then [] else moment :: sinceSelected moments := by
  unfold sinceSelected
  cases selects : moment.selects <;> simp [selects]

/-- A single call takes the count back if it selects a node, and otherwise adds what it counts. -/
theorem Moment.steps_response (moment : Moment σ) (single : moment.call ≠ .run) :
    moment.response.machine.steps =
      if moment.selects then 0 else moment.machine.steps + if moment.counts then 1 else 0 := by
  obtain ⟨machine, store, stage, call⟩ := moment
  cases call with
  | selectNode name =>
    show (machine.selectNode stage.program name).1.steps = 0
    cases known : stage.program.hasNode name with
    | true => rw [Machine.selectNode_known known]
    | false => rw [Machine.selectNode_unknown known]
  | step => exact machine.step_count store stage
  | run => exact absurd rfl single
  | selectOption handle index =>
    show (machine.answer store stage 0 (.selectOption handle index)).machine.steps = machine.steps
    cases selected : machine.selectOption handle index with
    | error rejection => rw [Machine.answer_rejected selected]
    | ok chosen =>
      rw [Machine.answer_chosen selected]
      obtain ⟨_, _, choice, _, rfl⟩ := Machine.selectOption_ok selected
      rfl
  | stop => rfl

namespace History

variable {stage : Stage} {moments : List (Moment σ)} {machine : Machine}

theorem steps_eq (history : History stage moments machine) :
    machine.steps = (sinceSelected moments).countP Moment.counts := by
  refine History.induction (motive := fun moments machine =>
    machine.steps = (sinceSelected moments).countP Moment.counts) rfl ?_ history
  intro moments machine past counted store present alike call single
  rw [sinceSelected_cons]
  refine (Moment.steps_response ⟨machine, store, present, call⟩ single).trans ?_
  cases Moment.selects (⟨machine, store, present, call⟩ : Moment σ) with
  | true => rfl
  | false => simp [List.countP_cons, counted]

end History

end History

section Treadmill

end Treadmill

end Dialogue
