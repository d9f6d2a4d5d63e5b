import Dialogue.Proofs.Machine.Conversation

/-!
Limits show only where they forbid something. As long as no call fails because of a limit, a host with wider limits has
the same conversation with the machine, and the machine goes the same way; even its count of steps is the same.
-/

namespace Dialogue

variable {σ : Type}

/-- Whatever the first limits let through the second ones let through, too. -/
structure Limits.Within (narrow wide : Limits) : Prop where
  steps : ∀ bound, wide.maxSteps = some bound → ∃ less, narrow.maxSteps = some less ∧ less ≤ bound
  stack : narrow.maxStackSize ≤ wide.maxStackSize

def Stage.withLimits (stage : Stage) (limits : Limits) : Stage := { stage with limits }

/-- Whether a limit has forbidden an instruction. -/
def Fault.isLimit : Fault → Bool
  | .stepLimit _ | .stackLimit _ => true
  | _ => false

/-- Whether a call has failed because of a limit. -/
def Reply.isLimited (reply : Reply) : Bool :=
  match reply.result with
  | .error fault => fault.isLimit
  | .ok _ => false

/-- Whether a response has failed because of a limit. -/
def Response.Limited {α : Type} (response : Response σ α) : Prop :=
  ∃ fault, response.result = .error fault ∧ fault.isLimit = true

theorem Response.isLimited_reply {response : Response σ Outcome} (limited : response.Limited) :
    response.reply.isLimited = true := by
  obtain ⟨fault, failed, limit⟩ := limited
  simp only [Reply.isLimited, reply, failed, limit]

namespace Machine

variable {machine : Machine} {stage : Stage} {wide : Limits}

theorem limitFault?_isLimit {instruction : Instruction} {fault : Fault}
    (limit : machine.limitFault? stage instruction = some fault) : fault.isLimit = true := by
  rcases limitFault?_cases limit with ⟨bound, rfl⟩ | ⟨bound, rfl⟩ <;> rfl

theorem allowed_withLimits (within : stage.limits.Within wide) {instruction : Instruction}
    (allowed : machine.limitFault? stage instruction = none) :
    machine.limitFault? (stage.withLimits wide) instruction = none := by
  obtain ⟨counted, fits⟩ := limitFault?_eq_none.mp allowed
  refine limitFault?_eq_none.mpr ⟨fun bound limit => ?_, Nat.le_trans fits within.stack⟩
  obtain ⟨less, tighter, le⟩ := within.steps bound limit
  exact Nat.le_trans (counted less tighter) le

variable [VariableStore σ]

/-- What an instruction does has nothing to do with limits. -/
theorem execute_withLimits (machine : Machine) (store : σ) (stage : Stage) (wide : Limits) (node : Node)
    (instruction : Instruction) :
    machine.execute store (stage.withLimits wide) node instruction = machine.execute store stage node instruction := by
  cases instruction <;> rfl

theorem step_withLimits (within : stage.limits.Within wide) (machine : Machine) (store : σ) :
    (machine.step store stage).Limited ∨ machine.step store (stage.withLimits wide) = machine.step store stage := by
  by_cases free : machine.status = .waiting
  · exact .inr ((step_waiting free store _).trans (step_waiting free store _).symm)
  · cases current : machine.currentNode? stage.program with
    | none =>
      have current' : machine.currentNode? (stage.withLimits wide).program = none := current
      exact .inr ((step_nowhere free current' store).trans (step_nowhere free current store).symm)
    | some node =>
      have current' : machine.currentNode? (stage.withLimits wide).program = some node := current
      cases here : node.instructions[machine.position]? with
      | none =>
        exact .inr ((step_finished free current' here store).trans (step_finished free current here store).symm)
      | some instruction =>
        cases allowed : machine.counted.limitFault? stage instruction with
        | some fault =>
          left
          rw [step_limited free current here allowed]
          exact ⟨fault, rfl, limitFault?_isLimit allowed⟩
        | none =>
          right
          have also := allowed_withLimits within allowed
          rw [step_executed free current here allowed, step_executed free current' here also, execute_withLimits]
          rfl

/-- A run that no limit ends is the same run with wider limits. -/
theorem run_withLimits (within : stage.limits.Within wide) (machine : Machine) (store : σ) (fuel : Nat) :
    (machine.run store stage fuel).Limited ∨
      machine.run store (stage.withLimits wide) fuel = machine.run store stage fuel := by
  induction fuel generalizing machine store with
  | zero => exact .inr rfl
  | succ fuel ih =>
    rw [run_succ, run_succ]
    rcases step_withLimits within machine store with ⟨fault, failed, limit⟩ | same
    · rw [failed]
      exact .inl ⟨fault, rfl, limit⟩
    · rw [same]
      rcases stepped : (machine.step store stage).result with fault | ⟨⟩
      · exact .inr rfl
      · by_cases halted : (machine.step store stage).machine.status ≠ .running
        · exact .inr (by simp only [if_pos halted])
        · simp only [if_neg halted]
          rcases ih (machine.step store stage).machine (machine.step store stage).store with
            ⟨fault, failed, limit⟩ | same
          · exact .inl ⟨fault, failed, limit⟩
          · rw [same]
            exact .inr rfl

theorem answer_withLimits (within : stage.limits.Within wide) (machine : Machine) (store : σ) (fuel : Nat)
    (call : HostCall) :
    (machine.answer store stage fuel call).Limited ∨
      machine.answer store (stage.withLimits wide) fuel call = machine.answer store stage fuel call := by
  cases call with
  | step =>
    rcases step_withLimits within machine store with ⟨fault, failed, limit⟩ | same
    · exact .inl ⟨fault, congrArg (Except.map _) failed, limit⟩
    · right
      simp only [answer, same]
  | run =>
    rcases run_withLimits within machine store fuel with ⟨fault, failed, limit⟩ | same
    · exact .inl ⟨fault, congrArg (Except.map _) failed, limit⟩
    · right
      simp only [answer, same]
  | selectNode | selectOption | stop => exact .inr rfl

end Machine

namespace Visit

variable [VariableStore σ] {stage : Stage} {wide : Limits}

/-- A call with wider limits is the same call, unless it fails because of a limit. -/
theorem take_withLimits (within : stage.limits.Within wide) (visit : Visit σ) (turn : Turn) :
    (∃ reply, (visit.take stage turn).heard.getLast? = some reply ∧ reply.isLimited = true) ∨
      visit.take (stage.withLimits wide) turn = visit.take stage turn := by
  unfold take
  rcases Machine.answer_withLimits within visit.machine visit.store turn.fuel turn.call with limited | same
  · exact .inl ⟨_, List.getLast?_concat, Response.isLimited_reply limited⟩
  · right
    rw [same]

theorem play_withLimits (within : stage.limits.Within wide) {visit : Visit σ} {turns : List Turn}
    (unlimited : ∀ reply ∈ (visit.play stage turns).heard, reply.isLimited = false) :
    visit.play (stage.withLimits wide) turns = visit.play stage turns := by
  induction turns generalizing visit with
  | nil => rfl
  | cons turn rest ih =>
    have unlimitedYet : ∀ reply ∈ (visit.take stage turn).heard, reply.isLimited = false := fun reply member =>
      unlimited reply ((heard_extends stage _ rest).subset member)
    show (visit.take (stage.withLimits wide) turn).play (stage.withLimits wide) rest = _
    rcases take_withLimits within visit turn with ⟨reply, last, limited⟩ | same
    · rw [unlimitedYet reply (List.mem_of_getLast? last)] at limited
      cases limited
    · rw [same]
      exact ih unlimited

/-- Limits are transparent until they fire. As long as no call fails because of a limit, a new machine with wider limits
is after every call in the same state, with the same store and the same replies; and unless the next call fails because
of a limit, it does not tell them apart either. -/
theorem limits_transparent (within : stage.limits.Within wide) (store : σ) {turns : List Turn}
    (unlimited : ∀ reply ∈ ((Visit.new store).play stage turns).heard, reply.isLimited = false) :
    (∀ earlier, earlier <+: turns →
      (Visit.new store).play (stage.withLimits wide) earlier = (Visit.new store).play stage earlier) ∧
    ∀ next : Turn,
      (∃ reply, ((Visit.new store).play stage (turns ++ [next])).heard.getLast? = some reply ∧
        reply.isLimited = true) ∨
      (Visit.new store).play (stage.withLimits wide) (turns ++ [next]) =
        (Visit.new store).play stage (turns ++ [next]) := by
  refine ⟨?_, fun next => ?_⟩
  · rintro earlier ⟨later, rfl⟩
    rw [play_append] at unlimited
    exact play_withLimits within fun reply member => unlimited reply ((heard_extends stage _ later).subset member)
  · rw [play_append, play_append, play_withLimits within unlimited]
    generalize (Visit.new store).play stage turns = visit
    rcases take_withLimits within visit next with limited | same
    · exact .inl limited
    · exact .inr same

end Visit

section Quay

/-- The quay for a host that is in a hurry and carries nothing. -/
def hurriedStage : Stage := quayStage.withLimits ⟨some 5, 1⟩

/-- Boarding the ship takes five steps, for which the limits are just wide enough. With another step the hurried host
hears of its limit, the other one of a second completion. -/
theorem limits_transparent_quay :
    ∃ turns : List Turn, hurriedStage.limits.Within ⟨none, 2⟩ ∧
      (∀ reply ∈ ((Visit.new Storage.empty).play hurriedStage turns).heard, reply.isLimited = false) ∧
      (Visit.new Storage.empty).play (hurriedStage.withLimits ⟨none, 2⟩) turns =
        (Visit.new Storage.empty).play hurriedStage turns ∧
      ((Visit.new Storage.empty).play hurriedStage turns).machine.node = some "Ship" ∧
      ((Visit.new Storage.empty).play hurriedStage turns).machine.steps = 5 ∧
      ((Visit.new Storage.empty).play hurriedStage (turns ++ [⟨0, .step⟩])).heard.map Reply.result =
        [.ok .done, .ok (.reached .waiting), .ok .done, .ok (.reached .stopped), .error (.stepLimit 5)] ∧
      ((Visit.new Storage.empty).play (hurriedStage.withLimits ⟨none, 2⟩)
          (turns ++ [⟨0, .step⟩])).heard.map Reply.result =
        [.ok .done, .ok (.reached .waiting), .ok .done, .ok (.reached .stopped), .ok .done] := by
  have within : hurriedStage.limits.Within ⟨none, 2⟩ := by
    constructor
    · intro bound unbounded
      cases unbounded
    · decide
  have unlimited : ∀ reply ∈ ((Visit.new Storage.empty).play hurriedStage [⟨0, .selectNode "Quay"⟩, ⟨9, .run⟩,
      ⟨0, .selectOption ⟨1, 2⟩ 0⟩, ⟨9, .run⟩]).heard, reply.isLimited = false := by
    decide
  obtain ⟨same, _⟩ := Visit.limits_transparent within Storage.empty unlimited
  exact ⟨_, within, unlimited, same _ (List.prefix_refl _), rfl, rfl, rfl, rfl⟩

end Quay

end Dialogue
