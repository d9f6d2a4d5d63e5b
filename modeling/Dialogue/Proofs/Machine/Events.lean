import Dialogue.Proofs.Machine.Prompt

/-!
What a run tells its host. It tells lines and commands as they come, and what closes it says how it ended: a prompt
that it waits at, the completion of the node that it stopped at, or nothing at all if it failed. The same is shown of
a single step first, where "nothing" also closes a step that leaves the machine running.
-/

namespace Dialogue

variable {σ : Type}

/-- Lines and commands, of which there may be any number. -/
def Event.isPassing : Event → Bool
  | .line _ | .command _ => true
  | _ => false

theorem Instruction.isPassing_of_told {program : Program} {instruction : Instruction} {event : Event}
    (tells : instruction.told? program = some event) : event.isPassing = true := by
  cases instruction with
  | runLine index =>
    obtain ⟨text, _, rfl⟩ := Option.map_eq_some_iff.mp tells
    rfl
  | runCommand text => cases tells; rfl
  | _ => cases tells

/-- What closes a stretch of play, by how it ended. -/
inductive Closes : Except Fault Status → List Event → Prop
  | asked (texts : List String) (handle : Handle) : Closes (.ok .waiting) [.options texts handle]
  | completed : Closes (.ok .stopped) [.complete]
  | running : Closes (.ok .running) []
  | failed (fault : Fault) : Closes (.error fault) []

/-- The events of a stretch of play that ended so: lines and commands, and what closes it. -/
def Shows (events : List Event) (outcome : Except Fault Status) : Prop :=
  ∃ passing closing, events = passing ++ closing ∧ (∀ event ∈ passing, event.isPassing = true) ∧
    Closes outcome closing

section Shows

variable {events later : List Event} {outcome : Except Fault Status}

theorem shows_closing (closes : Closes outcome events) : Shows events outcome := ⟨[], events, rfl, by simp, closes⟩

theorem shows_passing (passing : ∀ event ∈ events, event.isPassing = true) : Shows events (.ok .running) :=
  ⟨events, [], (List.append_nil _).symm, passing, .running⟩

theorem Shows.passing (shown : Shows events (.ok .running)) : ∀ event ∈ events, event.isPassing = true := by
  obtain ⟨passing, closing, rfl, pass, closes⟩ := shown
  cases closes
  rwa [List.append_nil]

/-- A stretch that leaves the machine running may be followed by another one. -/
theorem Shows.append (first : Shows events (.ok .running)) (second : Shows later outcome) :
    Shows (events ++ later) outcome := by
  obtain ⟨passing, closing, rfl, pass, closes⟩ := second
  refine ⟨events ++ passing, closing, (List.append_assoc _ _ _).symm, fun event member => ?_, closes⟩
  rcases List.mem_append.mp member with before | after
  · exact first.passing event before
  · exact pass event after

theorem Closes.count_complete {closing : List Event} (closes : Closes outcome closing) :
    closing.count .complete = if outcome.toOption = some .stopped then 1 else 0 := by
  cases closes <;> rfl

/-- The completion is told if and only if the machine was stopped without a failure, and then once. -/
theorem Shows.count_complete (shown : Shows events outcome) :
    events.count .complete = if outcome.toOption = some .stopped then 1 else 0 := by
  obtain ⟨passing, closing, rfl, pass, closes⟩ := shown
  have none : passing.count .complete = 0 := List.count_eq_zero.mpr fun member => by cases pass .complete member
  rw [List.count_append, none, Nat.zero_add, closes.count_complete]

end Shows

/-- The status in which an instruction leaves a machine that runs. -/
def Flow.leaves : Flow → Status
  | .advance | .jump _ | .entered => .running
  | .suspended => .waiting
  | .halted => .stopped

namespace Machine

section Step

variable [VariableStore σ] {machine : Machine} {store : σ} {stage : Stage} {node : Node} {instruction : Instruction}
  {response : Response σ Flow}

theorem Executes.status (executed : machine.Executes store stage node instruction response)
    (running : machine.status = .running) {flow : Flow} (succeeds : response.result = .ok flow) :
    response.machine.status = flow.leaves := by
  cases executed <;> cases succeeds <;> first | rfl | exact running

/-- The one fault of an instruction that is not fatal has stopped the machine itself. -/
theorem Executes.failed_stopped (executed : machine.Executes store stage node instruction response) {fault : Fault}
    (fails : response.result = .error fault) : (response.machine.failed fault).status = .stopped := by
  cases executed with
  | refused reason => cases fails; cases reason <;> rfl
  | callFailed | lost => cases fails; rfl
  | _ => cases fails

theorem Executes.shows (executed : machine.Executes store stage node instruction response) :
    Shows response.events (response.result.map Flow.leaves) := by
  cases executed with
  | told tells => exact shows_passing (by simpa using Instruction.isPassing_of_told tells)
  | prompted => exact shows_closing (.asked _ _)
  | stopped | nothingShown => exact shows_closing .completed
  | refused | callFailed | lost => exact shows_closing (.failed _)
  | _ => exact shows_closing .running

omit [VariableStore σ] in
/-- Arriving behind the last instruction completes the node. -/
theorem arrive_shows (program : Program) (position : Nat) (shown : Shows response.events (.ok .running))
    (running : response.machine.status = .running) :
    Shows (response.arrive program position).events (.ok (response.arrive program position).machine.status) := by
  rw [Response.arrive_eq]
  split
  · exact shown.append (shows_closing .completed)
  · rw [running]
    exact shown

theorem settle_shows (program : Program) (executed : machine.Executes store stage node instruction response)
    (running : machine.status = .running) :
    Shows (response.settle program).events
      ((response.settle program).result.map fun _ => (response.settle program).machine.status) := by
  have shown := executed.shows
  rcases result : response.result with fault | flow
  · rw [Response.settle_error result]
    rwa [result] at shown
  · have status := executed.status running result
    rw [result] at shown
    cases flow with
    | advance => rw [Response.settle_advance result, Response.arrive_result]; exact arrive_shows _ _ shown status
    | jump target => rw [Response.settle_jump result, Response.arrive_result]; exact arrive_shows _ _ shown status
    | entered => rw [Response.settle_entered result, Response.arrive_result]; exact arrive_shows _ _ shown status
    | suspended =>
      rw [Response.settle_suspended result]
      simpa only [Except.map, status] using shown
    | halted =>
      rw [Response.settle_halted result]
      simpa only [Except.map, status] using shown

/-- What a step tells goes with its result and the status that it leaves. -/
theorem step_shows (machine : Machine) (store : σ) (stage : Stage) :
    Shows (machine.step store stage).events
      ((machine.step store stage).result.map fun _ => (machine.step store stage).machine.status) := by
  have steps := machine.step_steps store stage
  generalize machine.step store stage = response at steps
  cases steps with
  | waits | nowhere | limited => exact shows_closing (.failed _)
  | finishes => exact shows_closing .completed
  | executes free current here allowed executed => exact settle_shows _ executed rfl

/-- A step that fails stops the machine, unless it was turned away by a prompt. -/
theorem step_failed_status {fault : Fault} (failed : (machine.step store stage).result = .error fault) :
    (machine.step store stage).machine.status = if machine.status = .waiting then .waiting else .stopped := by
  have steps := machine.step_steps store stage
  generalize machine.step store stage = response at steps failed
  cases steps with
  | waits waiting => rw [if_pos waiting]; exact waiting
  | nowhere free | limited free => rw [if_neg free]
  | finishes => cases failed
  | @executes _ _ response free current here allowed executed =>
    rw [if_neg free]
    rcases result : response.result with other | flow
    · rw [Response.settle_error result]
      exact executed.failed_stopped result
    · obtain ⟨_, _, _, settled, _⟩ := response.settle_eq stage.program
      rw [settled, result] at failed
      cases failed

theorem free_of_step_ok (stepped : (machine.step store stage).result = .ok ()) : machine.status ≠ .waiting := by
  intro waiting
  rw [step_waiting waiting] at stepped
  cases stepped

end Step

/-- A run that comes to an end: what it tells, what it answers, and the machine that it leaves. The host hears what is
told while the run is on and may change the store meanwhile, and functions that keep their signatures may change their
minds; so every step brings its own store and its own stage. -/
inductive Runs (σ : Type) [VariableStore σ] (stage : Stage) :
    Machine → List Event → Except Fault Status → Machine → Prop
  | fails {machine : Machine} {fault : Fault} (store : σ) {present : Stage} (alike : present.Alike stage)
      (failed : (machine.step store present).result = .error fault) :
      Runs σ stage machine (machine.step store present).events (.error fault) (machine.step store present).machine
  | rests {machine : Machine} (store : σ) {present : Stage} (alike : present.Alike stage)
      (stepped : (machine.step store present).result = .ok ())
      (still : (machine.step store present).machine.status ≠ .running) :
      Runs σ stage machine (machine.step store present).events (.ok (machine.step store present).machine.status)
        (machine.step store present).machine
  | goesOn {machine last : Machine} {later : List Event} {result : Except Fault Status} (store : σ) {present : Stage}
      (alike : present.Alike stage) (stepped : (machine.step store present).result = .ok ())
      (running : (machine.step store present).machine.status = .running)
      (rest : Runs σ stage (machine.step store present).machine later result last) :
      Runs σ stage machine ((machine.step store present).events ++ later) result last

section Run

variable [VariableStore σ] {machine last : Machine} {stage : Stage} {events : List Event}
  {result : Except Fault Status}

/-- A run with the same store and stage throughout is one of them, once it has fuel enough to return. -/
theorem run_runs {store : σ} {fuel : Nat} (returned : (machine.run store stage fuel).result = result.map some) :
    machine.Runs σ stage (machine.run store stage fuel).events result (machine.run store stage fuel).machine := by
  induction fuel generalizing machine store with
  | zero => cases result <;> cases returned
  | succ fuel ih =>
    rw [run_succ] at returned ⊢
    rcases stepped : (machine.step store stage).result with fault | ⟨⟩
    · simp only [stepped] at returned ⊢
      cases result <;> cases returned
      exact .fails store (.refl stage) stepped
    · by_cases running : (machine.step store stage).machine.status = .running
      · simp only [stepped, running, ne_eq, not_true_eq_false, if_false] at returned ⊢
        exact .goesOn store (.refl stage) stepped running (ih returned)
      · simp only [stepped, running, ne_eq, not_false_eq_true, if_true] at returned ⊢
        cases result <;> cases returned
        exact .rests store (.refl stage) stepped running

theorem Runs.shows (ran : machine.Runs σ stage events result last) : Shows events result := by
  induction ran with
  | @fails machine fault store present alike failed =>
    have shown := machine.step_shows store present
    rwa [failed] at shown
  | @rests machine store present alike stepped still =>
    have shown := machine.step_shows store present
    rwa [stepped] at shown
  | @goesOn machine last later result store present alike stepped running rest ih =>
    have shown := machine.step_shows store present
    simp only [stepped, Except.map, running] at shown
    exact shown.append ih

theorem Runs.reaches (ran : machine.Runs σ stage events result last) {status : Status} (reached : result = .ok status) :
    last.status = status ∧ status ≠ .running := by
  induction ran with
  | fails => cases reached
  | rests store alike stepped still => cases reached; exact ⟨rfl, still⟩
  | goesOn store alike stepped running rest ih => exact ih reached

/-- A run that has made a step was not turned away by a prompt, nor is any of its later steps. -/
theorem Runs.failed_status (ran : machine.Runs σ stage events result last) {fault : Fault}
    (failed : result = .error fault) :
    last.status = if machine.status = .waiting then .waiting else .stopped := by
  induction ran with
  | fails store alike stepped => exact step_failed_status stepped
  | rests => cases failed
  | goesOn store alike stepped running rest ih =>
    rw [if_neg (free_of_step_ok stepped), ih failed, running]
    rfl

/-- The shape of what a run tells, whatever the state that it starts from. Every run that returns tells lines and
commands and then one prompt if it waits, one completion if it stopped and nothing if it failed; it returns at no other
status, and a failure stops the machine unless a prompt turned the run away. A single step tells of a completion just if
it succeeds and leaves the machine stopped, and then once. -/
theorem run_shape (stage : Stage) (machine : Machine) :
    (∀ (store : σ) (fuel : Nat) (result : Except Fault Status), (machine.run store stage fuel).result = result.map some →
      machine.Runs σ stage (machine.run store stage fuel).events result (machine.run store stage fuel).machine) ∧
    (∀ events result last, machine.Runs σ stage events result last →
      Shows events result ∧ (∀ status, result = .ok status → last.status = status ∧ status ≠ .running) ∧
        ∀ fault, result = .error fault → last.status = if machine.status = .waiting then .waiting else .stopped) ∧
    ∀ store : σ, (.complete ∈ (machine.step store stage).events ↔
        (machine.step store stage).result = .ok () ∧ (machine.step store stage).machine.status = .stopped) ∧
      (machine.step store stage).events.count .complete ≤ 1 := by
  refine ⟨fun store fuel result returned => run_runs returned, fun events result last ran => ?_, fun store => ?_⟩
  · exact ⟨ran.shows, fun status => ran.reaches, fun fault => ran.failed_status⟩
  · have counted := (machine.step_shows store stage).count_complete
    rw [← List.count_pos_iff, counted]
    rcases (machine.step store stage).result with fault | ⟨⟩
    · simp [Except.map, Except.toOption]
    · by_cases stopped : (machine.step store stage).machine.status = .stopped <;>
        simp [Except.map, Except.toOption, stopped]

end Run

section Quay

/-- A run through two nodes: the machine boards the ship and is stopped there. -/
theorem run_shape_boardingMachine :
    ∃ last : Machine, boardingMachine.Runs Storage quayStage [.complete] (.ok .stopped) last ∧
      last.node = some "Ship" ∧ Shows [.complete] (.ok .stopped) ∧ last.status = .stopped := by
  obtain ⟨runs, shape, _⟩ := run_shape (σ := Storage) quayStage boardingMachine
  have ran := runs .empty 9 (.ok .stopped) rfl
  obtain ⟨shown, reached, _⟩ := shape _ _ _ ran
  exact ⟨_, ran, rfl, shown, (reached _ rfl).1⟩

end Quay

end Machine

end Dialogue
