import Dialogue.Proofs.Machine.Step

/-!
The histories of a machine: what its host may do with it from the moment it is new. Between two calls anyone may
change the store, and functions that keep their signatures may change their minds, so every call brings its own
store and its own stage. A run counts as the steps it makes, each of which is a moment of its own; whatever single
calls preserve, every history preserves.
-/

namespace Dialogue

variable {σ : Type} [VariableStore σ]

/-- Two stages that differ at most in what their functions answer. -/
structure Stage.Alike (x y : Stage) : Prop where
  program : x.program = y.program
  signatures : x.signatures = y.signatures
  limits : x.limits = y.limits

theorem Stage.Alike.refl (stage : Stage) : stage.Alike stage := ⟨rfl, rfl, rfl⟩

/-- A single call of the host or a single step of a run, with the machine, the store and the stage that it met. -/
structure Moment (σ : Type) where
  machine : Machine
  store : σ
  stage : Stage
  call : HostCall

/-- What came of a moment. -/
def Moment.response (moment : Moment σ) : Response σ Outcome :=
  moment.machine.answer moment.store moment.stage 0 moment.call

namespace Machine

/-- The steps that a run makes, the latest first. -/
def stepsOf (machine : Machine) (store : σ) (stage : Stage) : Nat → List (Moment σ)
  | 0 => []
  | fuel + 1 =>
    let stepped := machine.step store stage
    let now : Moment σ := ⟨machine, store, stage, .step⟩
    match stepped.result with
    | .error _ => [now]
    | .ok () =>
      if stepped.machine.status ≠ .running then [now]
      else stepped.machine.stepsOf stepped.store stage fuel ++ [now]

/-- The moments of a call, the latest first. -/
def momentsOf (machine : Machine) (store : σ) (stage : Stage) (fuel : Nat) : HostCall → List (Moment σ)
  | .run => machine.stepsOf store stage fuel
  | call => [⟨machine, store, stage, call⟩]

theorem momentsOf_single (machine : Machine) (store : σ) (stage : Stage) (fuel : Nat) {call : HostCall}
    (single : call ≠ .run) : machine.momentsOf store stage fuel call = [⟨machine, store, stage, call⟩] := by
  cases call <;> first | rfl | exact absurd rfl single

/-- A run ends with its first step, which failed or left the machine stopped or waiting, or goes on behind it. -/
theorem run_cases (machine : Machine) (store : σ) (stage : Stage) (fuel : Nat) :
    (∃ result, machine.run store stage (fuel + 1) = { machine.step store stage with result } ∧
      machine.stepsOf store stage (fuel + 1) = [⟨machine, store, stage, .step⟩] ∧
      ∀ fault, result = .error fault → (machine.step store stage).result = .error fault) ∨
    machine.run store stage (fuel + 1) =
        ((machine.step store stage).machine.run (machine.step store stage).store stage fuel).after
          (machine.step store stage).events ∧
      machine.stepsOf store stage (fuel + 1) =
        (machine.step store stage).machine.stepsOf (machine.step store stage).store stage fuel ++
          [⟨machine, store, stage, .step⟩] := by
  rw [run_succ, stepsOf]
  rcases (machine.step store stage).result with fault | ⟨⟩
  · exact .inl ⟨.error fault, rfl, by simp, fun other same => by cases same; rfl⟩
  · by_cases halted : (machine.step store stage).machine.status ≠ .running
    · exact .inl ⟨.ok (some (machine.step store stage).machine.status), by simp [halted], by simp [halted],
        fun _ same => by cases same⟩
    · exact .inr ⟨by simp [halted], by simp [halted]⟩

/-- Only a run looks at its fuel. -/
theorem answer_single (machine : Machine) (store : σ) (stage : Stage) (fuel : Nat) {call : HostCall}
    (single : call ≠ .run) : machine.answer store stage fuel call = machine.answer store stage 0 call := by
  cases call <;> first | rfl | exact absurd rfl single

end Machine

/-- The moments of a machine since it was new, the latest first, and the machine after them. A run that ran out of
fuel leaves the machine between two of its steps, so a history may also end there. -/
inductive History (stage : Stage) : List (Moment σ) → Machine → Prop
  | new : History stage [] .initial
  | call {moments : List (Moment σ)} {machine : Machine} (past : History stage moments machine) (store : σ)
      {present : Stage} (alike : present.Alike stage) (fuel : Nat) (call : HostCall) :
      History stage (machine.momentsOf store present fuel call ++ moments)
        (machine.answer store present fuel call).machine

namespace History

variable {stage present : Stage} {moments : List (Moment σ)} {machine : Machine}

/-- A moment extends a history. -/
theorem next (past : History stage moments machine) (store : σ) (alike : present.Alike stage) {call : HostCall}
    (single : call ≠ .run) :
    History stage (⟨machine, store, present, call⟩ :: moments) (machine.answer store present 0 call).machine := by
  have extended := past.call store alike 0 call
  rw [Machine.momentsOf_single machine store present 0 single] at extended
  exact extended

/-- What holds of a history and of one step more holds of a whole run. -/
theorem run_induction {motive : List (Moment σ) → Machine → Prop}
    (step : ∀ {moments machine}, History stage moments machine → motive moments machine → ∀ store : σ,
      motive (⟨machine, store, present, .step⟩ :: moments) (machine.step store present).machine)
    (past : History stage moments machine) (holds : motive moments machine) (alike : present.Alike stage)
    (store : σ) (fuel : Nat) :
    motive (machine.stepsOf store present fuel ++ moments) (machine.run store present fuel).machine := by
  induction fuel generalizing moments machine store with
  | zero => exact holds
  | succ fuel ih =>
    have stepped := step past holds store
    have later : History stage (⟨machine, store, present, .step⟩ :: moments) (machine.step store present).machine :=
      past.next store alike (by simp)
    rcases machine.run_cases store present fuel with ⟨result, ran, steps, _⟩ | ⟨ran, steps⟩
    · rw [ran, steps]
      exact stepped
    · rw [ran, steps, List.append_assoc]
      exact ih later stepped (machine.step store present).store

/-- The induction over histories by single moments. -/
theorem induction {motive : List (Moment σ) → Machine → Prop} (new : motive [] .initial)
    (next : ∀ {moments machine}, History stage moments machine → motive moments machine → ∀ (store : σ)
      {present : Stage}, present.Alike stage → ∀ {call}, call ≠ .run →
        motive (⟨machine, store, present, call⟩ :: moments) (machine.answer store present 0 call).machine)
    (history : History stage moments machine) : motive moments machine := by
  induction history with
  | new => exact new
  | call past store alike fuel call ih =>
    by_cases single : call = .run
    · subst single
      exact run_induction (fun past holds store => next past holds store alike (by simp)) past ih alike store fuel
    · rw [Machine.momentsOf_single _ _ _ _ single, Machine.answer_single _ _ _ _ single]
      exact next past ih store alike single

/-- What comes before a moment of a history is a history, too. -/
theorem before {later earlier : List (Moment σ)} (history : History stage (later ++ earlier) machine) :
    ∃ machine, History stage earlier machine := by
  refine History.induction
    (motive := fun moments _ => ∀ later, moments = later ++ earlier → ∃ machine, History stage earlier machine)
    ?_ ?_ history later rfl
  · intro later split
    obtain ⟨rfl, rfl⟩ := List.append_eq_nil_iff.mp split.symm
    exact ⟨.initial, .new⟩
  · intro moments machine past ends store present alike call single later split
    cases later with
    | nil =>
      rw [List.nil_append] at split
      exact ⟨_, split ▸ past.next store alike single⟩
    | cons moment later => exact ends later (List.cons.inj split).2

/-- What a new machine has, and every call of the host but a run keeps, every machine has. -/
theorem invariant {motive : Machine → Prop} (new : motive .initial)
    (selectNode : ∀ {machine}, motive machine → ∀ name, motive (machine.selectNode stage.program name).1)
    (step : ∀ {machine}, motive machine → ∀ (store : σ) {present : Stage}, present.Alike stage →
      motive (machine.step store present).machine)
    (selectOption : ∀ {machine handle index chosen}, motive machine → machine.selectOption handle index = .ok chosen →
      motive chosen)
    (stop : ∀ {machine}, motive machine → motive machine.stop) (history : History stage moments machine) :
    motive machine := by
  refine History.induction (motive := fun _ machine => motive machine) new ?_ history
  intro moments machine past holds store present alike call single
  cases call with
  | selectNode name =>
    show motive (machine.selectNode present.program name).1
    rw [alike.program]
    exact selectNode holds name
  | step => exact step holds store alike
  | run => exact absurd rfl single
  | selectOption handle index =>
    cases selected : machine.selectOption handle index with
    | error rejection => rw [Machine.answer_rejected selected]; exact holds
    | ok chosen => rw [Machine.answer_chosen selected]; exact selectOption holds selected
  | stop => exact stop holds

end History

/-- What the moments told the host, in the order of telling. -/
def toldIn (moments : List (Moment σ)) : List Event := moments.reverse.flatMap fun moment => moment.response.events

theorem toldIn_cons (moment : Moment σ) (moments : List (Moment σ)) :
    toldIn (moment :: moments) = toldIn moments ++ moment.response.events := by
  simp [toldIn]

theorem toldIn_append (later earlier : List (Moment σ)) :
    toldIn (later ++ earlier) = toldIn earlier ++ toldIn later := by
  simp [toldIn]

/-- A call tells what its moments tell. -/
theorem toldIn_momentsOf (machine : Machine) (store : σ) (stage : Stage) (fuel : Nat) (call : HostCall) :
    toldIn (machine.momentsOf store stage fuel call) = (machine.answer store stage fuel call).events := by
  by_cases single : call = .run
  · subst single
    show toldIn (machine.stepsOf store stage fuel) = (machine.run store stage fuel).events
    induction fuel generalizing machine store with
    | zero => rfl
    | succ fuel ih =>
      have now : toldIn [(⟨machine, store, stage, .step⟩ : Moment σ)] = (machine.step store stage).events := by
        rw [toldIn_cons]
        rfl
      rcases machine.run_cases store stage fuel with ⟨result, ran, steps, _⟩ | ⟨ran, steps⟩
      · rw [ran, steps, now]
      · rw [ran, steps, toldIn_append, now, ih]
        rfl
  · rw [Machine.momentsOf_single _ _ _ _ single, Machine.answer_single _ _ _ _ single, toldIn_cons]
    rfl

namespace Moment

omit [VariableStore σ] in
/-- The instruction that the machine stands at. -/
def instruction? (moment : Moment σ) : Option Instruction :=
  (moment.machine.currentNode? moment.stage.program).bind (·.instructions[moment.machine.position]?)

def succeeds (moment : Moment σ) : Bool := moment.response.result.isOk

/-- Whether a node is entered, by the host or by an instruction. -/
def enters (moment : Moment σ) : Bool :=
  match moment.call with
  | .selectNode _ => moment.succeeds
  | .step => moment.instruction? = some .runNode && moment.succeeds
  | _ => false

theorem succeeds_step_eq {machine : Machine} {store : σ} {stage : Stage} :
    (⟨machine, store, stage, .step⟩ : Moment σ).succeeds = (machine.step store stage).result.isOk := by
  show ((machine.step store stage).result.map fun _ => Outcome.done).isOk = _
  cases (machine.step store stage).result <;> rfl

theorem succeeds_step {machine : Machine} {store : σ} {stage : Stage} :
    (⟨machine, store, stage, .step⟩ : Moment σ).succeeds = true ↔ (machine.step store stage).result = .ok () := by
  rw [succeeds_step_eq]
  cases (machine.step store stage).result <;> simp [Except.isOk, Except.toBool]

theorem succeeds_selectNode_eq {machine : Machine} {store : σ} {stage : Stage} {name : String} :
    (⟨machine, store, stage, .selectNode name⟩ : Moment σ).succeeds = stage.program.hasNode name := by
  show ((machine.selectNode stage.program name).2.map fun _ => Outcome.done).isOk = _
  cases known : stage.program.hasNode name with
  | true => rw [Machine.selectNode_known known]; rfl
  | false => rw [Machine.selectNode_unknown known]; rfl

theorem succeeds_selectNode {machine : Machine} {store : σ} {stage : Stage} {name : String}
    (unknown : stage.program.hasNode name = false) :
    (⟨machine, store, stage, .selectNode name⟩ : Moment σ).succeeds = false :=
  succeeds_selectNode_eq.trans unknown

theorem succeeds_selectOption_eq {machine : Machine} {store : σ} {stage : Stage} {handle : Handle} {index : Nat} :
    (⟨machine, store, stage, .selectOption handle index⟩ : Moment σ).succeeds =
      (machine.selectOption handle index).isOk := by
  show (machine.answer store stage 0 (.selectOption handle index)).result.isOk = _
  cases selected : machine.selectOption handle index with
  | error rejection => rw [Machine.answer_rejected selected]; rfl
  | ok chosen => rw [Machine.answer_chosen selected]; rfl

end Moment

/-- A run fails as one of its steps does, at a point of the history behind the steps that have succeeded. -/
theorem History.run_error {stage present : Stage} {moments : List (Moment σ)} {machine : Machine}
    (past : History stage moments machine) (alike : present.Alike stage) {store : σ} {fuel : Nat} {fault : Fault}
    (failed : (machine.run store present fuel).result = .error fault) :
    ∃ (steps : List (Moment σ)) (before : Machine) (store : σ), History stage (steps ++ moments) before ∧
      (∀ moment ∈ steps, moment.call = .step ∧ moment.succeeds = true) ∧
      (before.step store present).result = .error fault := by
  induction fuel generalizing moments machine store with
  | zero => cases failed
  | succ fuel ih =>
    rw [Machine.run_succ] at failed
    rcases result : (machine.step store present).result with other | ⟨⟩
    · rw [result] at failed
      cases failed
      exact ⟨[], machine, store, past, by simp, result⟩
    · simp only [result] at failed
      by_cases halted : (machine.step store present).machine.status ≠ .running
      · rw [if_pos halted] at failed
        cases failed
      · rw [if_neg halted] at failed
        have later : History stage (⟨machine, store, present, .step⟩ :: moments) (machine.step store present).machine :=
          past.next store alike (by simp)
        obtain ⟨steps, before, store', history, succeeded, failed'⟩ := ih later failed
        refine ⟨steps ++ [⟨machine, store, present, .step⟩], before, store', ?_, fun moment member => ?_, failed'⟩
        · rw [List.append_assoc]
          exact history
        · rcases List.mem_append.mp member with among | first
          · exact succeeded moment among
          · cases List.mem_singleton.mp first
            exact ⟨rfl, Moment.succeeds_step.mpr result⟩

end Dialogue
