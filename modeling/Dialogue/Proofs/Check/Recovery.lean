import Dialogue.Proofs.Check.Soundness

/-!
What a host may go on with after a mistake. In an accepted program without jumps to where the stack says, a machine
that has only met mistakes of its host and of its contents misses no value, with one exception: a prompt that is left
for a node that is not known has no destination on the stack, and the node goes on behind it all the same.
-/

namespace Dialogue

variable {σ : Type} [VariableStore σ]

/-- Whether a prompt is left for a node that is not known. -/
def Moment.strays (moment : Moment σ) : Bool :=
  match moment.call with
  | .selectNode _ => moment.machine.status = .waiting && !moment.succeeds
  | _ => false

/-- Whether that has happened since a node was entered last. -/
def stranded : List (Moment σ) → Bool
  | [] => false
  | moment :: earlier => !moment.enters && (moment.strays || stranded earlier)

/-- A history in which the machine was not stopped from outside, no function has failed, and no prompt was left without
a node being entered since. -/
structure Unbroken (moments : List (Moment σ)) : Prop where
  unstopped : ∀ moment ∈ moments, moment.call ≠ .stop
  intact : ∀ moment ∈ moments, moment.functionFailed = false
  settled : stranded moments = false

/-- No node has a jump whose target is on the stack. -/
def Program.JumpsFixed (program : Program) : Prop := ∀ node ∈ program.nodes, .jump ∉ node.instructions

namespace Unbroken

variable {moment : Moment σ} {moments : List (Moment σ)}

theorem before (unbroken : Unbroken (moment :: moments)) (stays : moment.enters = false) :
    moment.strays = false ∧ Unbroken moments := by
  have settled := unbroken.settled
  rw [stranded, stays, Bool.not_false, Bool.true_and, Bool.or_eq_false_iff] at settled
  exact ⟨settled.1, fun other member => unbroken.unstopped other (List.mem_cons_of_mem moment member),
    fun other member => unbroken.intact other (List.mem_cons_of_mem moment member), settled.2⟩

/-- The check sees all that happens to a machine that stays in its node. -/
theorem undisturbing (unbroken : Unbroken (moment :: moments)) (fixed : moment.stage.program.JumpsFixed)
    (stays : moment.enters = false) : moment.disturbs = false := by
  obtain ⟨machine, store, stage, call⟩ := moment
  cases call with
  | selectNode name => exact (unbroken.before stays).1
  | step =>
    have unjumped : Moment.instruction? (⟨machine, store, stage, .step⟩ : Moment σ) ≠ some .jump := by
      intro stands
      obtain ⟨node, current, here⟩ := Option.bind_eq_some_iff.mp stands
      obtain ⟨name, _, found⟩ := Machine.currentNode?_some current
      exact fixed node (Program.mem_nodes_of_node? found) (List.mem_of_getElem? here)
    simp [Moment.disturbs, unjumped, unbroken.intact _ List.mem_cons_self]
  | run | selectOption => rfl
  | stop => exact absurd rfl (unbroken.unstopped _ List.mem_cons_self)

/-- Steps that succeed break nothing. -/
theorem append {steps : List (Moment σ)} (unbroken : Unbroken moments)
    (succeeded : ∀ moment ∈ steps, moment.call = .step ∧ moment.succeeds = true) : Unbroken (steps ++ moments) := by
  induction steps with
  | nil => exact unbroken
  | cons moment steps ih =>
    obtain ⟨stepped, succeeds⟩ := succeeded moment List.mem_cons_self
    have rest := ih fun other member => succeeded other (List.mem_cons_of_mem moment member)
    have unfailed : moment.functionFailed = false := by
      unfold Moment.succeeds at succeeds
      unfold Moment.functionFailed
      cases result : moment.response.result with
      | ok => rfl
      | error => simp [result, Except.isOk, Except.toBool] at succeeds
    constructor
    · exact List.forall_mem_cons.mpr ⟨by simp [stepped], rest.unstopped⟩
    · exact List.forall_mem_cons.mpr ⟨unfailed, rest.intact⟩
    · simp [stranded, Moment.strays, stepped, rest.settled]

end Unbroken

/-- The failure of a function is no mistake to recover from. -/
theorem Moment.intact_of_recoverable {moment : Moment σ}
    (recoverable : ∀ fault, moment.response.result = .error fault → fault.isFatal = false) :
    moment.functionFailed = false := by
  unfold functionFailed
  split
  next failed => cases recoverable _ failed
  next => rfl

theorem Moment.nowhere {moment : Moment σ} (single : moment.call ≠ .run) (nowhere : moment.machine.node = none)
    (stays : moment.enters = false) : moment.response.machine.node = none := by
  obtain ⟨machine, store, stage, call⟩ := moment
  cases call with
  | selectNode name =>
    have unknown : stage.program.hasNode name = false := succeeds_selectNode_eq.symm.trans stays
    simpa [response, Machine.answer, Machine.selectNode_unknown unknown] using nowhere
  | step =>
    have absent : machine.currentNode? stage.program = none := by
      unfold Machine.currentNode?
      rw [nowhere]
      rfl
    have steps := machine.step_steps store stage
    change (machine.step store stage).machine.node = none
    generalize machine.step store stage = response at steps
    cases steps with
    | waits | nowhere => exact nowhere
    | finishes _ current | limited _ current | executes _ current =>
      rw [absent] at current
      cases current
  | run => exact absurd rfl single
  | selectOption handle index =>
    change (machine.answer store stage 0 (.selectOption handle index)).machine.node = none
    cases selected : machine.selectOption handle index with
    | error rejection => rw [Machine.answer_rejected selected]; exact nowhere
    | ok chosen =>
      rw [Machine.answer_chosen selected]
      obtain ⟨_, _, choice, _, rfl⟩ := Machine.selectOption_ok selected
      exact nowhere
  | stop => exact nowhere

namespace History

variable {stage present : Stage} {moments : List (Moment σ)} {machine : Machine}

/-- In an unbroken history the check has seen all that has happened since a node was entered, if one was at all. -/
theorem undisturbed_or_nowhere (fixed : stage.program.JumpsFixed) (history : History stage moments machine)
    (unbroken : Unbroken moments) : undisturbed moments = true ∨ machine.node = none := by
  revert unbroken
  refine History.induction
    (motive := fun moments machine => Unbroken moments → undisturbed moments = true ∨ machine.node = none)
    (fun _ => .inr rfl) ?_ history
  intro moments machine past calm store present alike call single unbroken
  cases enters : Moment.enters (⟨machine, store, present, call⟩ : Moment σ) with
  | true =>
    left
    rw [undisturbed, enters, Bool.true_or]
  | false =>
    rcases calm (unbroken.before enters).2 with undisturbed | nowhere
    · left
      rw [Dialogue.undisturbed, unbroken.undisturbing (alike.program ▸ fixed) enters, undisturbed]
      simp
    · exact .inr (Moment.nowhere single nowhere enters)

theorem step_enough (accepted : stage.program.check stage.signatures = .ok ()) (fixed : stage.program.JumpsFixed)
    (history : History stage moments machine) (unbroken : Unbroken moments) (alike : present.Alike stage) (store : σ)
    (needed available : Nat) : (machine.step store present).result ≠ .error (.stackUnderflow needed available) := by
  intro failed
  obtain ⟨node, instruction, free, current, here, refuses⟩ := step_refused alike failed rfl
  rcases history.undisturbed_or_nowhere fixed unbroken with calm | nowhere
  · exact refuses_enough accepted (history.level calm) alike free current here refuses
  · obtain ⟨name, named, _⟩ := Machine.currentNode?_some current
    rw [nowhere] at named
    cases named

/-- After mistakes the host may go on. As long as it does not stop an accepted program without jumps to where the stack
says, and no function fails, no call misses a value, unless a prompt was left for a node that is not known and no node
has been entered since. -/
theorem continues_enough (accepted : stage.program.check stage.signatures = .ok ()) (fixed : stage.program.JumpsFixed)
    (history : History stage moments machine) (unbroken : Unbroken moments) (alike : present.Alike stage) (store : σ)
    (fuel : Nat) (call : HostCall) (needed available : Nat) :
    (machine.answer store present fuel call).result ≠ .error (.stackUnderflow needed available) := by
  intro failed
  rcases Machine.answer_error failed with stepped | ran | other
  · exact history.step_enough accepted fixed unbroken alike store needed available stepped
  · obtain ⟨steps, before, store, past, succeeded, failed⟩ := history.run_error alike ran
    exact past.step_enough accepted fixed (unbroken.append succeeded) alike store needed available failed
  · cases other

end History

section Fork

/-- A node that asks for a way and forgets the answer. -/
def fork : Program where
  name := "fork"
  strings := []
  nodes := [⟨"Fork", [], [.addOption none "Left", .addOption none "Right", .showOptions, .pop]⟩]
  ascending := List.pairwise_singleton _ _

def forkStage : Stage := ⟨fork, fun _ => none, .standard⟩

/-- The machine whose prompt has been left for a node that is not known. -/
def strayMachine : Machine where
  node := some "Fork"
  position := 3
  stack := []
  pending := []
  status := .stopped
  steps := 0
  ticket := 1

/-- The machine that has been asked again since then, and has been told to go left. -/
def turningMachine : Machine where
  node := some "Fork"
  position := 3
  stack := [.string "Left"]
  pending := []
  status := .running
  steps := 3
  ticket := 2

theorem fork_accepted : fork.check forkStage.signatures = .ok () := by cbv

theorem fork_jumpsFixed : fork.JumpsFixed := by
  unfold Program.JumpsFixed
  decide

theorem strayMachine_history : ∃ moments : List (Moment Storage), History forkStage moments strayMachine ∧
    moments.map Moment.call = [.selectNode "Nowhere", .step, .step, .step, .selectNode "Fork"] ∧
    moments.map (fun moment => moment.response.result) =
      [.error (.unknownNode "Nowhere"), .ok .done, .ok .done, .ok .done, .ok .done] := by
  have selected := (History.new (σ := Storage)).call .empty (.refl forkStage) 0 (.selectNode "Fork")
  have asked := selected.call .empty (.refl forkStage) 9 .run
  have strayed : History forkStage _ strayMachine := asked.call .empty (.refl forkStage) 0 (.selectNode "Nowhere")
  exact ⟨_, strayed, rfl, rfl⟩

theorem turningMachine_history : ∃ moments : List (Moment Storage), History forkStage moments turningMachine ∧
    moments.map Moment.call = [.selectOption ⟨2, 2⟩ 0, .step, .step, .step, .selectNode "Fork",
      .selectNode "Nowhere", .step, .step, .step, .selectNode "Fork"] ∧
    moments.map (fun moment => moment.response.result) = [.ok .done, .ok .done, .ok .done, .ok .done, .ok .done,
      .error (.unknownNode "Nowhere"), .ok .done, .ok .done, .ok .done, .ok .done] ∧
    moments.any Moment.strays = true ∧ stranded moments = false := by
  have selected := (History.new (σ := Storage)).call .empty (.refl forkStage) 0 (.selectNode "Fork")
  have asked := selected.call .empty (.refl forkStage) 9 .run
  have strayed := asked.call .empty (.refl forkStage) 0 (.selectNode "Nowhere")
  have returned := strayed.call .empty (.refl forkStage) 0 (.selectNode "Fork")
  have again := returned.call .empty (.refl forkStage) 9 .run
  have turned : History forkStage _ turningMachine := again.call .empty (.refl forkStage) 0 (.selectOption ⟨2, 2⟩ 0)
  exact ⟨_, turned, rfl, rfl, rfl, rfl⟩

/-- Behind the prompt that was left there is no destination, although the only mistake was one of the host. -/
theorem strayMachine_underflow :
    ∃ moments : List (Moment Storage), fork.check forkStage.signatures = .ok () ∧ fork.JumpsFixed ∧
      History forkStage moments strayMachine ∧ (∀ moment ∈ moments, moment.call ≠ .stop) ∧
      (∀ moment ∈ moments, moment.functionFailed = false) ∧
      (∀ moment ∈ moments, ∀ fault, moment.response.result = .error fault → fault.isFatal = false) ∧
      (strayMachine.step Storage.empty forkStage).result = .error (.stackUnderflow 1 0) := by
  obtain ⟨moments, history, calls, results⟩ := strayMachine_history
  have unstopped : ∀ call ∈ moments.map Moment.call, call ≠ .stop := by simp [calls]
  have mistakes : ∀ result ∈ moments.map fun moment => moment.response.result,
      ∀ fault, result = .error fault → fault.isFatal = false := by simp [results, Fault.isFatal]
  exact ⟨moments, fork_accepted, fork_jumpsFixed, history,
    fun moment member => unstopped _ (List.mem_map_of_mem member),
    fun moment member => moment.intact_of_recoverable (mistakes _ (List.mem_map_of_mem member)),
    fun moment member => mistakes _ (List.mem_map_of_mem member), rfl⟩

/-- The machine that has found its way again does not miss its destination, in spite of the unknown node before. -/
theorem continues_enough_turningMachine :
    ∃ moments : List (Moment Storage), fork.check forkStage.signatures = .ok () ∧ fork.JumpsFixed ∧
      History forkStage moments turningMachine ∧ Unbroken moments ∧ moments.any Moment.strays = true ∧
      ∀ needed available,
        (turningMachine.answer Storage.empty forkStage 9 .run).result ≠ .error (.stackUnderflow needed available) := by
  obtain ⟨moments, history, calls, results, strays, settled⟩ := turningMachine_history
  have unstopped : ∀ call ∈ moments.map Moment.call, call ≠ .stop := by simp [calls]
  have mistakes : ∀ result ∈ moments.map fun moment => moment.response.result,
      ∀ fault, result = .error fault → fault.isFatal = false := by simp [results, Fault.isFatal]
  have unbroken : Unbroken moments :=
    ⟨fun moment member => unstopped _ (List.mem_map_of_mem member),
      fun moment member => moment.intact_of_recoverable (mistakes _ (List.mem_map_of_mem member)), settled⟩
  exact ⟨moments, fork_accepted, fork_jumpsFixed, history, unbroken, strays,
    history.continues_enough fork_accepted fork_jumpsFixed unbroken (.refl forkStage) Storage.empty 9 .run⟩

end Fork

end Dialogue
