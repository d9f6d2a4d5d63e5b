import Dialogue.Proofs.Machine.Failure
import Mathlib.Logic.Relation

/-!
The table of effects against the machine. What the check and the limits read off the table before an instruction runs
is what the instruction does to the stack when it runs. It misses a value just if the table asks for more than there
are; and if it succeeds it has taken as many values as the table says, has put as many there, and has left those below
alone. A node that is entered starts with nothing on the stack instead, and options that are shown put a destination
there only if there is one to put, which may be as late as the host's answer.
-/

namespace Dialogue

variable {σ : Type}

/-- Whether an instruction looks at the top of the stack and leaves it there. -/
def Instruction.peeks : Instruction → Bool
  | .jump | .jumpIfFalse _ | .storeVariable _ => true
  | _ => false

namespace Machine

section Prompt

variable [VariableStore σ] {machine later : Machine}

/-- A call after which the machine still waits has changed nothing. -/
theorem answer_waiting {store : σ} {stage : Stage} {fuel : Nat} {call : HostCall} (waiting : machine.status = .waiting)
    (still : (machine.answer store stage fuel call).machine.status = .waiting) :
    (machine.answer store stage fuel call).machine = machine := by
  cases call with
  | selectNode name => exact absurd still (machine.selectNode_free stage.program name)
  | step => simp only [answer, step_waiting waiting]
  | run =>
    cases fuel with
    | zero => rfl
    | succ fuel => simp only [answer, run_waiting waiting]
  | selectOption handle index =>
    cases selected : machine.selectOption handle index with
    | error rejection => rw [answer_rejected selected]
    | ok chosen =>
      obtain ⟨_, _, choice, _, rfl⟩ := selectOption_ok selected
      rw [answer_chosen selected] at still
      cases still
  | stop => cases still

variable (σ) in
/-- A call of the host that leaves the machine at its prompt. -/
def StaysAsked (machine later : Machine) : Prop :=
  ∃ (store : σ) (stage : Stage) (fuel : Nat) (call : HostCall),
    later = (machine.answer store stage fuel call).machine ∧ later.status = .waiting

/-- The machine has shown the options that were queued, and its stack is still as it was. Any of them can be chosen,
and whichever is has its destination put on the stack. -/
structure Owes (asked machine : Machine) : Prop where
  stack : asked.stack = machine.stack
  accepts : ∀ index choice, machine.pending[index]? = some choice → ∀ count, ∃ chosen,
    asked.selectOption ⟨machine.ticket + 1, count⟩ index = .ok chosen
  pushes : ∀ handle index chosen, asked.selectOption handle index = .ok chosen →
    ∃ choice, machine.pending[index]? = some choice ∧ chosen.stack = .string choice.destination :: machine.stack

/-- However long the host hesitates, the prompt stays as it is. -/
theorem eq_of_staysAsked (waiting : machine.status = .waiting)
    (hesitates : Relation.ReflTransGen (StaysAsked σ) machine later) : later = machine := by
  induction hesitates with
  | refl => rfl
  | tail _ stays same =>
    obtain ⟨store, stage, fuel, call, rfl, still⟩ := stays
    rw [same] at still ⊢
    exact answer_waiting waiting still

end Prompt

section Effect

variable [VariableStore σ] {machine : Machine} {store : σ} {stage : Stage} {node : Node} {instruction : Instruction}
  {response : Response σ Flow} {effect : Effect}

theorem execute_unknown {name : String} (unknown : stage.function? name = none) :
    machine.execute store stage node (.callFunction name) = ⟨machine, store, [], .error (.unknownFunction name)⟩ := by
  simp only [execute, callFunction, unknown]

omit [VariableStore σ] in
theorem callFunction_short {name : String} {function : Function} (known : stage.function? name = some function)
    (short : machine.stack.length < function.arity) :
    machine.callFunction store stage name =
      ⟨machine, store, [], .error (.stackUnderflow function.arity machine.stack.length)⟩ := by
  simp only [callFunction, known, Scene.popMany, if_pos short]

/-- An instruction that asks for more values than there are says so, and does nothing else. -/
theorem execute_short (known : instruction.effect? stage.signatures = some effect)
    (short : machine.stack.length < effect.pops) :
    machine.execute store stage node instruction =
      ⟨machine, store, [], .error (.stackUnderflow effect.pops machine.stack.length)⟩ := by
  cases instruction with
  | jump | jumpIfFalse | storeVariable | runNode | pop =>
    cases known
    have empty : machine.stack = [] := by simpa using short
    simp only [execute, storeVariable, runNode, Scene.peek, Scene.pop, proceed, empty, Except.bind, Except.map,
      List.length_nil]
  | callFunction name =>
    cases found : stage.function? name with
    | none => simp [Instruction.effect?, Stage.signatures, found] at known
    | some function =>
      rw [Instruction.effect?_callFunction found] at known
      cases known
      exact callFunction_short found short
  | _ =>
    cases known
    exact absurd short (Nat.not_lt_zero _)

/-- A value is missed only where the table asks for more than there are. -/
theorem Executes.short_of_underflow (executed : machine.Executes store stage node instruction response)
    (known : instruction.effect? stage.signatures = some effect) {needed available : Nat}
    (misses : response.result = .error (.stackUnderflow needed available)) : machine.stack.length < effect.pops := by
  cases executed with
  | refused reason =>
    cases misses
    cases reason with
    | underflow known' short =>
      cases known.symm.trans known'
      exact short
  | _ => cases misses

theorem Executes.stack_of_peeks (executed : machine.Executes store stage node instruction response)
    (peeks : instruction.peeks = true) {flow : Flow} (succeeds : response.result = .ok flow) :
    response.machine.stack = machine.stack := by
  cases executed with
  | callFailed | lost => cases succeeds
  | pushed pushes =>
    cases instruction with
    | jump | jumpIfFalse | storeVariable => cases pushes
    | _ => cases peeks
  | popped | called | entered | taken => cases peeks
  | _ => rfl

theorem Executes.stack_of_runNode (executed : machine.Executes store stage node .runNode response) {flow : Flow}
    (succeeds : response.result = .ok flow) : response.machine.stack = [] := by
  have scene := (executed.entered_scene (executed.runNode_result succeeds)).2
  obtain ⟨name, _, scene⟩ := scene
  exact congrArg Scene.stack scene

theorem Executes.stack_of_nothingShown (executed : machine.Executes store stage node .showOptions response)
    (empty : machine.pending = []) {flow : Flow} (succeeds : response.result = .ok flow) :
    response.machine.stack = machine.stack := by
  cases executed with
  | refused => cases succeeds
  | pushed pushes => cases pushes
  | taken alone => cases empty.symm.trans alone
  | _ => rfl

end Effect

end Machine

/-- The response of a machine to an instruction, held against the effect that the table has for the instruction. -/
structure Response.Fulfils [VariableStore σ] (response : Response σ Flow) (machine : Machine) (stage : Stage)
    (instruction : Instruction) (effect : Effect) : Prop where
  underflow : (∃ needed available, response.result = .error (.stackUnderflow needed available)) ↔
    machine.stack.length < effect.pops
  /-- The values below those that are taken stay where they are. -/
  stack : ∀ flow, response.result = .ok flow → ¬instruction.Departs machine flow →
    ∃ put : List Value, put.length = effect.pushes ∧ response.machine.stack = put ++ machine.stack.drop effect.pops
  height : ∀ flow, response.result = .ok flow → ¬instruction.Departs machine flow →
    response.machine.stack.length = machine.stack.length - effect.pops + effect.pushes
  peeks : ∀ flow, response.result = .ok flow → instruction.peeks = true → response.machine.stack = machine.stack
  /-- A function is given the values that it takes in the order in which they were pushed. -/
  calls : ∀ flow name, response.result = .ok flow → instruction = .callFunction name →
    ∃ function value, stage.function? name = some function ∧
      function.body (machine.stack.take effect.pops).reverse = .ok value ∧
      response.machine.stack = (if function.returnsValue then [value] else []) ++ machine.stack.drop effect.pops
  enters : ∀ flow, response.result = .ok flow → instruction = .runNode → response.machine.stack = []
  nothingShown : ∀ flow, response.result = .ok flow → instruction = .showOptions → machine.pending = [] →
    response.machine.stack = machine.stack
  suspends : response.result = .ok .suspended → instruction = .showOptions ∧ response.machine.stack = machine.stack
  /-- The value that is missing then is owed until the host has chosen. -/
  owes : response.result = .ok .suspended → ∀ asked,
    Relation.ReflTransGen (Machine.StaysAsked σ) (response.settle stage.program).machine asked → asked.Owes machine

namespace Machine

section Fulfils

variable [VariableStore σ] {machine : Machine} {store : σ} {stage : Stage} {node : Node} {instruction : Instruction}
  {response : Response σ Flow} {effect : Effect}

theorem Executes.owes (executed : machine.Executes store stage node instruction response)
    (suspends : response.result = .ok .suspended) {asked : Machine}
    (hesitates : Relation.ReflTransGen (StaysAsked σ) (response.settle stage.program).machine asked) :
    asked.Owes machine := by
  obtain ⟨_, _, _, texts, _, rfl⟩ := executed.suspended_response suspends
  rw [Response.settle_suspended suspends] at hesitates
  cases eq_of_staysAsked rfl hesitates
  refine ⟨rfl, fun index choice found count => ⟨_, selectOption_chosen rfl rfl found⟩, ?_⟩
  intro handle index chosen accepted
  obtain ⟨_, _, choice, found, rfl⟩ := selectOption_ok accepted
  exact ⟨choice, found, rfl⟩

theorem Executes.fulfils (executed : machine.Executes store stage node instruction response)
    (known : instruction.effect? stage.signatures = some effect)
    (short : machine.stack.length < effect.pops →
      response.result = .error (.stackUnderflow effect.pops machine.stack.length)) :
    response.Fulfils machine stage instruction effect where
  underflow := ⟨fun ⟨_, _, misses⟩ => executed.short_of_underflow known misses, fun lacks => ⟨_, _, short lacks⟩⟩
  stack := fun _ => executed.stack_eq_append known
  height := by
    intro flow succeeds foretold
    exact executed.height_eq known succeeds foretold
  peeks := fun _ succeeds peeks => executed.stack_of_peeks peeks succeeds
  calls := by
    rintro flow name succeeds rfl
    obtain ⟨function, value, found, answered, stack⟩ := executed.called_eq succeeds
    cases known.symm.trans (Instruction.effect?_callFunction found)
    exact ⟨function, value, found, answered, stack⟩
  enters := by
    rintro flow succeeds rfl
    exact executed.stack_of_runNode succeeds
  nothingShown := by
    rintro flow succeeds rfl empty
    exact executed.stack_of_nothingShown empty succeeds
  suspends := by
    intro suspends
    obtain ⟨shows, _, _, texts, _, rfl⟩ := executed.suspended_response suspends
    exact ⟨shows, rfl⟩
  owes := fun suspends _ => executed.owes suspends

/-- The table of effects agrees with the machine, for every instruction and in every state. Without an effect is just
the call of a function that is not known, which is refused and changes nothing; and every other instruction fulfils the
effect that the table has for it. -/
theorem execute_fulfils (machine : Machine) (store : σ) (stage : Stage) (node : Node) (instruction : Instruction) :
    (instruction.effect? stage.signatures = none ↔
      ∃ name, instruction = .callFunction name ∧ stage.function? name = none) ∧
    (∀ name, instruction = .callFunction name → stage.function? name = none →
      machine.execute store stage node instruction = ⟨machine, store, [], .error (.unknownFunction name)⟩) ∧
    ∀ effect, instruction.effect? stage.signatures = some effect →
      (machine.execute store stage node instruction).Fulfils machine stage instruction effect := by
  refine ⟨?_, ?_, ?_⟩
  · rw [Instruction.effect?_eq_none]
    simp only [Stage.signatures, Option.map_eq_none_iff]
  · rintro name rfl unknown
    exact execute_unknown unknown
  · intro effect known
    apply (execute_executes machine store stage node instruction).fulfils known
    intro short
    rw [execute_short known short]

end Fulfils

end Machine

section Toll

/-- The same toll where two coins are enough, and the one that was given first comes back as change. -/
def changeStage : Stage where
  program := toll
  function? name := if name = "pay" then some (.returning "pay" 2 fun coins => .ok (coins.headD .null)) else none
  limits := .standard

/-- The function that is paid takes the two coins on top, as the table says, and gets them in the order in which they
were pushed. The options on the quay are shown with nothing on the stack, and choosing the first puts the ship there. -/
theorem execute_fulfils_toll_quay :
    ((Instruction.callFunction "pay").effect? changeStage.signatures = some ⟨2, 1⟩ ∧
      (payingMachine.execute Storage.empty changeStage ⟨"Toll", [], []⟩ (.callFunction "pay")).machine.stack =
        [.null, .bool true]) ∧
    Instruction.showOptions.effect? quayStage.signatures = some ⟨0, 1⟩ ∧
      (askingMachine.counted.execute Storage.empty quayStage ⟨"Quay", [], []⟩ .showOptions).result = .ok .suspended ∧
      ∃ chosen, quayMachine.selectOption ⟨1, 2⟩ 0 = .ok chosen ∧ chosen.stack = [.string "Ship"] := by
  obtain ⟨_, _, paid⟩ :=
    Machine.execute_fulfils payingMachine Storage.empty changeStage ⟨"Toll", [], []⟩ (.callFunction "pay")
  obtain ⟨function, value, known, answered, stack⟩ := (paid ⟨2, 1⟩ rfl).calls .advance "pay" rfl rfl
  cases known
  cases answered
  obtain ⟨_, _, asked⟩ :=
    Machine.execute_fulfils askingMachine.counted Storage.empty quayStage ⟨"Quay", [], []⟩ .showOptions
  have owes : quayMachine.Owes askingMachine.counted := (asked ⟨0, 1⟩ rfl).owes rfl quayMachine .refl
  obtain ⟨chosen, accepted⟩ := owes.accepts 0 ⟨some 0, "Ship"⟩ rfl 2
  obtain ⟨choice, queued, pushed⟩ := owes.pushes ⟨1, 2⟩ 0 chosen accepted
  cases queued
  exact ⟨⟨rfl, stack⟩, rfl, rfl, chosen, accepted, pushed⟩

end Toll

end Dialogue
