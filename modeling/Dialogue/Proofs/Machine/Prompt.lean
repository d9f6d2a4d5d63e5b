import Dialogue.Proofs.Machine.History

/-!
Where a machine may stand, whatever its host has done with it. Its node is one of the program and its position lies
in it or right behind it; a machine that runs has a node; and one that waits stands behind the instruction that
showed the options, holds just the options that it showed, and knows the handle that answers them.
-/

namespace Dialogue

variable {σ : Type}

/-- The handle that comes with an event. -/
def Event.handle? : Event → Option Handle
  | .options _ handle => some handle
  | _ => none

def lastHandle? [VariableStore σ] (moments : List (Moment σ)) : Option Handle :=
  ((toldIn moments).filterMap Event.handle?).getLast?

theorem lastHandle?_cons [VariableStore σ] (moment : Moment σ) (moments : List (Moment σ)) :
    lastHandle? (moment :: moments) =
      (moment.response.events.filterMap Event.handle?).getLast?.or (lastHandle? moments) := by
  rw [lastHandle?, toldIn_cons, List.filterMap_append, List.getLast?_append, lastHandle?]

/-- What a queued option shows: its text in the string table, or its destination if it has none. -/
def Choice.caption? (choice : Choice) (program : Program) : Option String :=
  match choice.text with
  | some index => program.strings[index.toNat]?
  | none => some choice.destination

theorem Choice.shownText_eq_ok_iff {choice : Choice} {program : Program} {text : String} :
    choice.shownText program = .ok text ↔ choice.caption? program = some text := by
  unfold shownText caption?
  cases choice.text with
  | none => simp
  | some index =>
    simp only [Program.string]
    split
    next shown found => rw [found]; simp
    next absent => rw [absent]; simp

/-- All options resolve, and to just these texts. -/
theorem captions_iff {program : Program} {options : List Choice} {texts : List String} :
    options.mapM (·.shownText program) = .ok texts ↔ options.map (·.caption? program) = texts.map some := by
  induction options generalizing texts with
  | nil => cases texts <;> simp [pure, Except.pure]
  | cons choice rest ih =>
    have head (text : String) : choice.caption? program = some text ↔ choice.shownText program = .ok text :=
      Choice.shownText_eq_ok_iff.symm
    rw [List.mapM_cons, List.map_cons]
    cases texts with
    | nil =>
      cases choice.shownText program <;> cases rest.mapM (·.shownText program) <;>
        simp [bind, Except.bind, pure, Except.pure]
    | cons text others =>
      rw [List.map_cons, List.cons.injEq, head, ← ih]
      cases choice.shownText program <;> cases rest.mapM (·.shownText program) <;>
        simp [bind, Except.bind, pure, Except.pure]

theorem captions_length {program : Program} {options : List Choice} {texts : List String}
    (captions : options.map (·.caption? program) = texts.map some) : texts.length = options.length := by
  simpa only [List.length_map] using (congrArg List.length captions).symm

theorem texts_of_shown {program : Program} {options : List Choice} {texts : List String}
    (shown : options.mapM (·.shownText program) = .ok texts) :
    texts.length = options.length ∧ ∀ choice ∈ options, ∃ text, choice.shownText program = .ok text := by
  have captions := captions_iff.mp shown
  refine ⟨captions_length captions, fun choice member => ?_⟩
  have listed : choice.caption? program ∈ texts.map some := captions ▸ List.mem_map_of_mem member
  obtain ⟨text, _, caption⟩ := List.mem_map.mp listed
  exact ⟨text, Choice.shownText_eq_ok_iff.mpr caption.symm⟩

namespace Machine

/-- The current node, if there is one, is a node of the program, and the position is in it or right behind it. -/
def InPlace (machine : Machine) (program : Program) : Prop :=
  ∀ name, machine.node = some name →
    ∃ node, program.node? name = some node ∧ machine.position ≤ node.instructions.length

/-- What a machine that waits has in front of it: the options it has just shown, which are worth a question, and
the handle issued with them. -/
structure AtPrompt (machine : Machine) (program : Program) (latest : Option Handle) : Prop where
  behind : ∃ node position, machine.currentNode? program = some node ∧ machine.position = position + 1 ∧
    node.instructions[position]? = some .showOptions
  nonempty : machine.pending ≠ []
  asking : ∀ destination, machine.pending ≠ [⟨none, destination⟩]
  resolved : ∀ choice ∈ machine.pending, ∃ text, choice.shownText program = .ok text
  issued : latest = some ⟨machine.ticket, machine.pending.length⟩

/-- The states in which a machine may be found. -/
structure Consistent (machine : Machine) (program : Program) (latest : Option Handle) : Prop where
  inPlace : machine.InPlace program
  running : machine.status = .running → machine.node ≠ none
  waiting : machine.status = .waiting → machine.AtPrompt program latest

theorem AtPrompt.node_ne_none {machine : Machine} {program : Program} {latest : Option Handle}
    (prompt : machine.AtPrompt program latest) : machine.node ≠ none := by
  obtain ⟨node, _, current, _⟩ := prompt.behind
  obtain ⟨name, named, _⟩ := currentNode?_some current
  simp [named]

theorem consistent_of_free {machine : Machine} {program : Program} {latest : Option Handle}
    (inPlace : machine.InPlace program) (free : machine.status ≠ .waiting)
    (running : machine.status = .running → machine.node ≠ none) : machine.Consistent program latest :=
  ⟨inPlace, running, fun waiting => absurd waiting free⟩

theorem inPlace_start {program : Program} {name : String} (known : program.hasNode name = true) {machine : Machine}
    (node : machine.node = some name) (start : machine.position = 0) : machine.InPlace program := by
  intro other named
  obtain rfl : name = other := Option.some.inj (node.symm.trans named)
  obtain ⟨found, is⟩ := Option.isSome_iff_exists.mp known
  exact ⟨found, is, by omega⟩

theorem inPlace_same {program : Program} {machine other : Machine} (inPlace : machine.InPlace program)
    (node : other.node = machine.node) (position : other.position = machine.position) : other.InPlace program := by
  intro name named
  rw [position]
  exact inPlace name (node ▸ named)

/-- A machine that stays in its node, in place and not waiting, is consistent. -/
theorem consistent_at {program : Program} {machine other : Machine} {node : Node} {latest : Option Handle}
    (current : machine.currentNode? program = some node) (stays : other.node = machine.node)
    (inside : other.position ≤ node.instructions.length) (free : other.status ≠ .waiting) :
    other.Consistent program latest := by
  obtain ⟨name, named, found⟩ := currentNode?_some current
  refine consistent_of_free (fun name' named' => ?_) free (fun _ => by rw [stays, named]; simp)
  obtain rfl : name = name' := Option.some.inj ((stays.trans named).symm.trans named')
  exact ⟨node, found, inside⟩

section Preservation

variable {machine : Machine} {stage present : Stage} {latest : Option Handle}

theorem initial_consistent (program : Program) : Machine.initial.Consistent program latest :=
  consistent_of_free (fun _ named => by cases named) (by decide) (by decide)

theorem selectNode_consistent {program : Program} (consistent : machine.Consistent program latest) (name : String) :
    (machine.selectNode program name).1.Consistent program latest := by
  have free := machine.selectNode_free program name
  cases known : program.hasNode name with
  | true =>
    rw [selectNode_known known] at free ⊢
    exact consistent_of_free (inPlace_start known rfl rfl) free (fun _ => by simp)
  | false =>
    rw [selectNode_unknown known] at free ⊢
    exact consistent_of_free (inPlace_same consistent.inPlace rfl rfl) free (by simp)

theorem stop_consistent {program : Program} (consistent : machine.Consistent program latest) :
    machine.stop.Consistent program latest :=
  consistent_of_free (inPlace_same consistent.inPlace rfl rfl) (by simp [stop]) (by simp [stop])

theorem selectOption_consistent {program : Program} (consistent : machine.Consistent program latest) {handle : Handle}
    {index : Nat} {chosen : Machine} (accepted : machine.selectOption handle index = .ok chosen) :
    chosen.Consistent program latest := by
  obtain ⟨waiting, _, choice, _, rfl⟩ := selectOption_ok accepted
  exact consistent_of_free (inPlace_same consistent.inPlace rfl rfl) (by simp)
    fun _ => (consistent.waiting waiting).node_ne_none

/-- Whatever the instruction at its position does, the machine comes out consistent. -/
theorem settle_consistent [VariableStore σ] {store : σ} {node : Node} {instruction : Instruction}
    {response : Response σ Flow} (current : machine.currentNode? present.program = some node)
    (here : node.instructions[machine.position]? = some instruction)
    (executed : machine.counted.Executes store present node instruction response) :
    (response.settle present.program).machine.Consistent present.program
      (((response.settle present.program).events.filterMap Event.handle?).getLast?.or latest) := by
  have inside : machine.position < node.instructions.length := (List.getElem?_eq_some_iff.mp here).1
  -- Arriving elsewhere in the node, after an instruction that does not suspend.
  have arrives : ∀ target, response.result ≠ .ok .entered → response.result ≠ .ok .suspended →
      target ≤ node.instructions.length → ∀ latest : Option Handle,
        (response.arrive present.program target).machine.Consistent present.program latest := by
    intro target stays goes bound latest
    refine consistent_at current ?_ ?_ (Response.arrive_free (executed.free goes machine.counted_free) _ _)
    · rw [Response.arrive_scene]
      exact (executed.keeps_place stays).1
    · rw [Response.arrive_scene]
      exact bound
  rcases result : response.result with fault | flow
  · obtain ⟨stays, still⟩ := executed.keeps_place (by simp [result])
    rw [Response.settle_error result]
    have free := executed.free (by simp [result]) machine.counted_free
    refine consistent_at current ?_ ?_ (failed_free free fault)
    · rw [failed_scene]
      exact stays
    · rw [failed_scene, still]
      exact Nat.le_of_lt inside
  · cases flow with
    | advance =>
      rw [Response.settle_advance result]
      refine arrives _ (by simp [result]) (by simp [result]) ?_ _
      rw [(executed.keeps_place (by simp [result])).2]
      exact inside
    | jump target =>
      obtain ⟨label, found⟩ := executed.jump_target result
      rw [Response.settle_jump result]
      exact arrives _ (by simp [result]) (by simp [result]) (Nat.le_of_lt (Node.labelIndex?_lt found)) _
    | entered =>
      obtain ⟨_, name, known, scene⟩ := executed.entered_scene result
      rw [Response.settle_entered result]
      have place : (response.arrive present.program response.machine.position).machine.toScene =
          ⟨some name, 0, [], []⟩ := by
        rw [Response.arrive_scene, scene]
      have free := executed.free (by simp [result]) machine.counted_free
      exact consistent_of_free (inPlace_start known (by rw [place]) (by rw [place]))
        (Response.arrive_free free _ _) (fun _ => by rw [place]; simp)
    | halted =>
      rw [Response.settle_halted result]
      obtain ⟨stays, still⟩ := executed.keeps_place (by simp [result])
      refine consistent_at current stays ?_ (executed.free (by simp [result]) machine.counted_free)
      rw [still]
      exact Nat.le_of_lt inside
    | suspended =>
      obtain ⟨rfl, nonempty, asking, texts, shown, rfl⟩ := executed.suspended_response result
      obtain ⟨sameLength, resolved⟩ := texts_of_shown shown
      obtain ⟨name, named, found⟩ := currentNode?_some current
      rw [Response.settle_suspended result]
      refine ⟨?_, by simp, fun _ => ⟨⟨node, machine.position, current, rfl, here⟩, nonempty, asking, resolved, ?_⟩⟩
      · intro other named'
        obtain rfl : name = other := Option.some.inj (named.symm.trans named')
        exact ⟨node, found, inside⟩
      · rw [sameLength]
        rfl

theorem step_consistent [VariableStore σ] (consistent : machine.Consistent present.program latest) (store : σ) :
    (machine.step store present).machine.Consistent present.program
      (((machine.step store present).events.filterMap Event.handle?).getLast?.or latest) := by
  have steps := machine.step_steps store present
  generalize machine.step store present = response at steps
  cases steps with
  | waits waiting => exact consistent
  | nowhere free absent => exact consistent_of_free (inPlace_same consistent.inPlace rfl rfl) (by simp) (by simp)
  | finishes free current beyond =>
    exact consistent_of_free (inPlace_same consistent.inPlace rfl rfl) (by simp) (by simp)
  | limited free current here limit =>
    exact consistent_of_free (inPlace_same consistent.inPlace rfl rfl) (by simp) (by simp)
  | executes free current here allowed executed => exact settle_consistent current here executed

end Preservation

end Machine

/-- Every history leaves the machine consistent with the handle issued last. -/
theorem History.consistent [VariableStore σ] {stage : Stage} {moments : List (Moment σ)} {machine : Machine}
    (history : History stage moments machine) : machine.Consistent stage.program (lastHandle? moments) := by
  refine History.induction (motive := fun moments machine => machine.Consistent stage.program (lastHandle? moments))
    (Machine.initial_consistent stage.program) ?_ history
  intro moments machine past consistent store present alike call single
  rw [lastHandle?_cons]
  rw [← alike.program] at consistent ⊢
  cases call with
  | selectNode name => exact Machine.selectNode_consistent consistent name
  | step => exact Machine.step_consistent consistent store
  | run => exact absurd rfl single
  | selectOption handle index =>
    simp only [Moment.response, Machine.answer]
    split
    next chosen accepted => exact Machine.selectOption_consistent consistent accepted
    next fault refused => exact consistent
  | stop => exact Machine.stop_consistent consistent

namespace Machine

/-- A prompt turns steps away, and is left by an accepted choice, by selecting a node or by stopping only. -/
structure HoldsPrompt (σ : Type) [VariableStore σ] (machine : Machine) : Prop where
  step : ∀ (store : σ) (stage : Stage), machine.step store stage = ⟨machine, store, [], .error .stillWaiting⟩
  run : ∀ (store : σ) (stage : Stage) (fuel : Nat),
    machine.run store stage (fuel + 1) = ⟨machine, store, [], .error .stillWaiting⟩
  left : ∀ (store : σ) (stage : Stage) (fuel : Nat) (call : HostCall),
    (machine.answer store stage fuel call).machine.status ≠ .waiting →
      (∃ handle index, call = .selectOption handle index ∧ (machine.answer store stage fuel call).result = .ok .done ∧
        (machine.answer store stage fuel call).machine.status = .running) ∨
      ((∃ name, call = .selectNode name) ∨ call = .stop) ∧
        (machine.answer store stage fuel call).machine.status = .stopped

theorem run_waiting [VariableStore σ] {machine : Machine} (waiting : machine.status = .waiting) (store : σ)
    (stage : Stage) (fuel : Nat) :
    machine.run store stage (fuel + 1) = ⟨machine, store, [], .error .stillWaiting⟩ := by
  rw [run_succ, step_waiting waiting]

theorem selectNode_stopped {machine : Machine} (waiting : machine.status = .waiting) (program : Program)
    (name : String) : (machine.selectNode program name).1.status = .stopped := by
  by_cases known : program.hasNode name = true
  · rw [selectNode_known known]
    exact if_pos waiting
  · rw [selectNode_unknown (Bool.eq_false_iff.mpr known)]

theorem holdsPrompt_of_waiting [VariableStore σ] {machine : Machine} (waiting : machine.status = .waiting) :
    machine.HoldsPrompt σ where
  step := step_waiting waiting
  run := run_waiting waiting
  left := by
    intro store stage fuel call leaves
    cases call with
    | selectNode name => exact .inr ⟨.inl ⟨name, rfl⟩, selectNode_stopped waiting stage.program name⟩
    | step =>
      refine absurd ?_ leaves
      simp only [answer, step_waiting waiting]
      exact waiting
    | run =>
      refine absurd ?_ leaves
      cases fuel with
      | zero => exact waiting
      | succ fuel =>
        simp only [answer, run_waiting waiting]
        exact waiting
    | selectOption handle index =>
      simp only [answer] at leaves ⊢
      split at leaves
      next chosen accepted =>
        obtain ⟨_, _, choice, _, rfl⟩ := selectOption_ok accepted
        exact .inl ⟨handle, index, rfl, rfl, rfl⟩
      next fault refused => exact absurd waiting leaves
    | stop => exact .inr ⟨.inr rfl, rfl⟩

end Machine

/-- The invariant of the machine: in every state that a history reaches, the machine is consistent, and while it
waits its prompt holds. -/
theorem History.state_invariant [VariableStore σ] {stage : Stage} {moments : List (Moment σ)} {machine : Machine}
    (history : History stage moments machine) :
    machine.Consistent stage.program (lastHandle? moments) ∧
      (machine.status = .waiting → machine.HoldsPrompt σ) :=
  ⟨history.consistent, fun waiting => Machine.holdsPrompt_of_waiting waiting⟩

section Quay

/-- A node that asks where to go and goes there, and the two places. -/
def quay : Program where
  name := "quay"
  strings := ["Board the ship"]
  nodes := [⟨"Inn", [], []⟩, ⟨"Quay", [], [.addOption (some 0) "Ship", .addOption none "Inn", .showOptions, .runNode]⟩,
    ⟨"Ship", [], [.stop]⟩]
  ascending := .cons (by simp only [List.forall_mem_cons]; decide) (.cons (by simp only [List.forall_mem_cons]; decide)
    (List.pairwise_singleton _ _))

def quayStage : Stage := ⟨quay, fun _ => none, .standard⟩

def quayMachine : Machine where
  node := some "Quay"
  position := 3
  stack := []
  pending := [⟨some 0, "Ship"⟩, ⟨none, "Inn"⟩]
  status := .waiting
  steps := 3
  ticket := 1

/-- The machine that has been told to board the ship and is about to go there. -/
def boardingMachine : Machine where
  node := some "Quay"
  position := 3
  stack := [.string "Ship"]
  pending := []
  status := .running
  steps := 3
  ticket := 1

theorem quayMachine_history : ∃ moments : List (Moment Storage), History quayStage moments quayMachine := by
  have selected := (History.new (σ := Storage)).call .empty (.refl quayStage) 0 (.selectNode "Quay")
  have asked := selected.call .empty (.refl quayStage) 9 .run
  exact ⟨_, asked⟩

theorem state_invariant_quayMachine :
    ∃ moments : List (Moment Storage), History quayStage moments quayMachine ∧ quayMachine.status = .waiting ∧
      quayMachine.Consistent quay (lastHandle? moments) ∧ quayMachine.HoldsPrompt Storage := by
  obtain ⟨moments, history⟩ := quayMachine_history
  obtain ⟨consistent, holds⟩ := history.state_invariant
  exact ⟨moments, history, rfl, consistent, holds rfl⟩

end Quay

end Dialogue
