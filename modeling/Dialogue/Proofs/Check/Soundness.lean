import Dialogue.Proofs.Check.Heights
import Dialogue.Proofs.Check.References
import Dialogue.Proofs.Machine.Stack

/-!
The check holds what it promises to the machine. In an accepted program no text and no fixed label is ever missed,
whatever the host does. And from the moment a node is entered until something happens that the check cannot see, every
instruction is met with the one stack height that the check has recorded for it, so that no value is ever missed.
-/

namespace Dialogue

section Accepted

variable {program : Program} {signature? : Signatures} {node : Node}

theorem Program.mem_nodes_of_node? {name : String} (found : program.node? name = some node) : node ∈ program.nodes :=
  List.mem_of_find?_eq_some found

/-- What acceptance says of the node that a machine is in. -/
theorem Program.check_node (accepted : program.check signature? = .ok ()) {machine : Machine}
    (current : machine.currentNode? program = some node) :
    (∀ instruction ∈ node.instructions, node.danglingReference? program.strings instruction = none) ∧
      ∃ heights, node.heights signature? = .ok heights := by
  obtain ⟨name, _, found⟩ := Machine.currentNode?_some current
  exact Node.check_eq_ok.mp (check_eq_ok.mp accepted node (mem_nodes_of_node? found))

end Accepted

variable {σ : Type}

namespace Moment

variable [VariableStore σ]

def functionFailed (moment : Moment σ) : Bool :=
  match moment.response.result with
  | .error (.functionFailed _ _) => true
  | _ => false

/-- Whether something happens that the check cannot see: a jump whose target is on the stack is taken, a prompt is
abandoned before its destination is pushed, or a function fails after it has taken its arguments. -/
def disturbs (moment : Moment σ) : Bool :=
  match moment.call with
  | .selectNode _ => moment.machine.status = .waiting && !moment.succeeds
  | .stop => moment.machine.status = .waiting
  | .step => (moment.instruction? = some .jump && moment.succeeds) || moment.functionFailed
  | _ => false

theorem functionFailed_step {machine : Machine} {store : σ} {stage : Stage} {name message : String}
    (fails : (machine.step store stage).result = .error (.functionFailed name message)) :
    (⟨machine, store, stage, .step⟩ : Moment σ).functionFailed = true := by
  simp [functionFailed, response, Machine.answer, fails, Except.map]

end Moment

/-- Whether a node has been entered and nothing has happened since that the check cannot see. -/
def undisturbed [VariableStore σ] : List (Moment σ) → Bool
  | [] => false
  | moment :: earlier => moment.enters || !moment.disturbs && undisturbed earlier

namespace Machine

def Resolves (machine : Machine) (program : Program) : Prop :=
  ∀ choice ∈ machine.pending, ∀ index, choice.text = some index → program.strings[index.toNat]? ≠ none

/-- The stack has the height that the check has recorded where the machine stands. -/
def Level (machine : Machine) (program : Program) (signature? : Signatures) : Prop :=
  ∀ node heights instruction, machine.currentNode? program = some node → node.heights signature? = .ok heights →
    node.instructions[machine.position]? = some instruction → heights[machine.position]? = some (some machine.height)

section Level

variable {machine other : Machine} {program : Program} {signature? : Signatures}

theorem Level.same (level : machine.Level program signature?) (node : other.node = machine.node)
    (position : other.position = machine.position) (height : other.height = machine.height) :
    other.Level program signature? := by
  intro current heights instruction
  unfold currentNode?
  rw [node, position, height]
  exact level current heights instruction

theorem level_start (start : other.position = 0) (empty : other.stack = []) (free : other.status ≠ .waiting) :
    other.Level program signature? := by
  intro node heights instruction _ found here
  rw [start] at here ⊢
  rw [height_of_free free, empty]
  exact Node.heights_start found here

theorem selectNode_known_level {name : String} (known : program.hasNode name = true) :
    (machine.selectNode program name).1.Level program signature? := by
  have free := machine.selectNode_free program name
  rw [selectNode_known known] at free ⊢
  exact level_start rfl rfl free

theorem selectNode_unknown_level {name : String} (level : machine.Level program signature?)
    (unknown : program.hasNode name = false) (free : machine.status ≠ .waiting) :
    (machine.selectNode program name).1.Level program signature? := by
  rw [selectNode_unknown unknown]
  exact level.same rfl rfl (by simp [height, free])

theorem stop_level (level : machine.Level program signature?) (free : machine.status ≠ .waiting) :
    machine.stop.Level program signature? :=
  level.same rfl rfl (by simp [stop, height, free, Scene.clearPending])

theorem selectOption_level (level : machine.Level program signature?) {handle : Handle} {index : Nat}
    {chosen : Machine} (accepted : machine.selectOption handle index = .ok chosen) :
    chosen.Level program signature? := by
  obtain ⟨waiting, _, choice, _, rfl⟩ := selectOption_ok accepted
  exact level.same rfl rfl (by simp [height, waiting])

variable {node : Node} {response : Response σ Flow}

/-- Arriving in the same node, at a position that the recorded heights lead to. -/
theorem arrive_level {target : Nat} (current : machine.currentNode? program = some node)
    (stays : response.machine.node = machine.node) (goes : response.machine.status ≠ .waiting)
    (led : ∀ heights next, node.heights signature? = .ok heights → node.instructions[target]? = some next →
      heights[target]? = some (some response.machine.stack.length)) :
    (response.arrive program target).machine.Level program signature? := by
  intro found heights next current' explored there
  have scene := response.arrive_scene program target
  rw [height_of_free (Response.arrive_free goes program target)]
  unfold currentNode? at current current'
  rw [scene] at current' there ⊢
  rw [stays, current] at current'
  cases current'
  exact led heights next explored there

variable [VariableStore σ] {store : σ} {stage : Stage} {instruction : Instruction}

theorem settle_entered_level (executed : machine.counted.Executes store stage node instruction response)
    (enters : response.result = .ok .entered) :
    (response.settle stage.program).machine.Level stage.program signature? := by
  obtain ⟨_, name, _, scene⟩ := executed.entered_scene enters
  have place : (response.arrive stage.program response.machine.position).machine.toScene = ⟨some name, 0, [], []⟩ := by
    rw [Response.arrive_scene, scene]
  rw [Response.settle_entered enters]
  exact level_start (by rw [place]) (by rw [place])
    (Response.arrive_free (executed.free (by simp [enters]) machine.counted_free) _ _)

/-- Whatever the instruction does that the machine stands at, the recorded heights stay in force, unless it jumps to
where the stack says or calls a function that fails. -/
theorem settle_level (level : machine.Level stage.program stage.signatures) (free : machine.status ≠ .waiting)
    (current : machine.currentNode? stage.program = some node)
    (here : node.instructions[machine.position]? = some instruction)
    (executed : machine.counted.Executes store stage node instruction response)
    (fixed : ∀ target, response.result = .ok (.jump target) → instruction ≠ .jump)
    (intact : ∀ name message, response.result ≠ .error (.functionFailed name message)) :
    (response.settle stage.program).machine.Level stage.program stage.signatures := by
  have recorded : ∀ heights, node.heights stage.signatures = .ok heights →
      heights[machine.position]? = some (some machine.stack.length) := by
    intro heights explored
    rw [← height_of_free free]
    exact level node heights instruction current explored here
  rcases result : response.result with fault | flow
  · have stack := executed.keeps_stack
      (.inr ⟨fault, result, fun name message same => intact name message (same ▸ result)⟩)
    obtain ⟨stays, still⟩ := executed.keeps_place (by simp [result])
    have goes := executed.free (by simp [result]) machine.counted_free
    rw [Response.settle_error result]
    have scene := response.machine.failed_scene fault
    refine level.same ?_ ?_ ?_
    · rw [scene]; exact stays
    · rw [scene]; exact still
    · rw [height_of_free (failed_free goes fault), height_of_free free, scene, stack]
      rfl
  · cases flow with
    | advance =>
      obtain ⟨effect, known, changed, follows⟩ := executed.advance_height result
      obtain ⟨stays, still⟩ := executed.keeps_place (by simp [result])
      have goes := executed.free (by simp [result]) machine.counted_free
      rw [Response.settle_advance result]
      apply arrive_level current stays goes
      intro heights next explored there
      rw [changed, still]
      rw [still] at there
      exact Node.heights_successor explored (recorded heights explored) here known (follows machine.position) there
    | jump target =>
      obtain ⟨effect, known, changed, follows⟩ := executed.jump_height result (fixed target result)
      obtain ⟨stays, _⟩ := executed.keeps_place (by simp [result])
      have goes := executed.free (by simp [result]) machine.counted_free
      rw [Response.settle_jump result]
      apply arrive_level current stays goes
      intro heights next explored there
      rw [changed]
      exact Node.heights_successor explored (recorded heights explored) here known (follows machine.position) there
    | entered => exact settle_entered_level executed result
    | halted =>
      have stack := executed.keeps_stack (.inl result)
      obtain ⟨stays, still⟩ := executed.keeps_place (by simp [result])
      have goes := executed.free (by simp [result]) machine.counted_free
      rw [Response.settle_halted result]
      apply level.same stays still
      rw [height_of_free goes, height_of_free free, stack]
      rfl
    | suspended =>
      obtain ⟨rfl, _, _, texts, _, rfl⟩ := executed.suspended_response result
      rw [Response.settle_suspended result]
      intro found heights next current' explored there
      cases current.symm.trans current'
      have effect : Instruction.showOptions.effect? stage.signatures = some ⟨0, 1⟩ := rfl
      have led := Node.heights_successor explored (recorded heights explored) here effect
        (List.mem_singleton_self _) there
      exact led

theorem step_entered_level (store : σ) (current : machine.currentNode? stage.program = some node)
    (here : node.instructions[machine.position]? = some .runNode)
    (succeeds : (machine.step store stage).result = .ok ()) :
    (machine.step store stage).machine.Level stage.program signature? := by
  have steps := machine.step_steps store stage
  generalize machine.step store stage = response at steps succeeds
  cases steps with
  | waits | nowhere | limited => cases succeeds
  | finishes free current' beyond =>
    cases current.symm.trans current'
    rw [here] at beyond
    cases beyond
  | @executes _ _ response free current' here' allowed executed =>
    cases current.symm.trans current'
    cases here.symm.trans here'
    rcases result : response.result with fault | flow
    · rw [Response.settle_error result] at succeeds
      cases succeeds
    · exact settle_entered_level executed (executed.runNode_result result)

theorem step_level (level : machine.Level stage.program stage.signatures) (store : σ)
    (fixed : ∀ node, machine.currentNode? stage.program = some node →
      node.instructions[machine.position]? = some .jump → (machine.step store stage).result ≠ .ok ())
    (intact : ∀ name message, (machine.step store stage).result ≠ .error (.functionFailed name message)) :
    (machine.step store stage).machine.Level stage.program stage.signatures := by
  have steps := machine.step_steps store stage
  generalize machine.step store stage = response at steps fixed intact
  cases steps with
  | waits => exact level
  | nowhere free => exact level.same rfl rfl (by simp [height, free])
  | finishes free => exact level.same rfl rfl (by simp [height, free])
  | limited free => exact level.same rfl rfl (by simp [height, free, counted])
  | @executes node instruction response free current here allowed executed =>
    refine settle_level level free current here executed (fun target jumps same => ?_) (fun name message fails => ?_)
    · apply fixed node current (same ▸ here)
      rw [Response.settle_jump jumps, Response.arrive_result]
    · apply intact name message
      rw [Response.settle_error fails]

end Level

section Resolves

variable {machine : Machine} {program : Program}

theorem resolves_of_subset {other : Machine} (resolves : machine.Resolves program)
    (subset : other.pending ⊆ machine.pending) : other.Resolves program :=
  fun choice member => resolves choice (subset member)

theorem selectNode_resolves (resolves : machine.Resolves program) (name : String) :
    (machine.selectNode program name).1.Resolves program := by
  by_cases known : program.hasNode name = true
  · rw [selectNode_known known]
    exact resolves_of_subset resolves (by simp)
  · rw [selectNode_unknown (Bool.eq_false_iff.mpr known)]
    apply resolves_of_subset resolves
    dsimp only
    split <;> simp

theorem selectOption_resolves (resolves : machine.Resolves program) {handle : Handle} {index : Nat} {chosen : Machine}
    (accepted : machine.selectOption handle index = .ok chosen) : chosen.Resolves program := by
  obtain ⟨_, _, choice, _, rfl⟩ := selectOption_ok accepted
  exact resolves_of_subset resolves (by simp)

theorem stop_resolves (resolves : machine.Resolves program) : machine.stop.Resolves program :=
  resolves_of_subset resolves (by simp [stop, Scene.clearPending])

/-- An instruction of an accepted node queues no option whose text is missing. -/
theorem step_resolves [VariableStore σ] {stage : Stage} (accepted : stage.program.check stage.signatures = .ok ())
    (resolves : machine.Resolves stage.program) (store : σ) :
    (machine.step store stage).machine.Resolves stage.program := by
  have steps := machine.step_steps store stage
  generalize machine.step store stage = response at steps
  cases steps with
  | @executes node instruction response free current here allowed executed =>
    have clean := (stage.program.check_node accepted current).1 instruction (List.mem_of_getElem? here)
    unfold Resolves
    rw [Response.settle_pending]
    rcases executed.pending_cases with same | dropped | ⟨text, destination, rfl, queued⟩
    · rw [same]
      exact resolves
    · rw [dropped]
      simp
    · rw [queued]
      intro choice member index labelled
      rcases List.mem_append.mp member with earlier | new
      · exact resolves choice earlier index labelled
      · cases List.mem_singleton.mp new
        exact Node.string_of_danglingReference? clean labelled
  | _ => exact resolves_of_subset resolves (List.Subset.refl _)

end Resolves

end Machine

namespace History

variable [VariableStore σ] {stage present : Stage} {moments : List (Moment σ)} {machine : Machine}

theorem resolves (accepted : stage.program.check stage.signatures = .ok ()) (history : History stage moments machine) :
    machine.Resolves stage.program := by
  refine history.invariant (motive := fun machine => machine.Resolves stage.program)
    (by simp [Machine.Resolves, Machine.initial, Scene.initial]) Machine.selectNode_resolves ?_
    (fun resolves accepted => Machine.selectOption_resolves resolves accepted) Machine.stop_resolves
  intro machine resolves store present alike
  rw [← alike.program, ← alike.signatures] at accepted
  rw [← alike.program] at resolves ⊢
  exact Machine.step_resolves accepted resolves store

/-- As long as nothing happens that the check cannot see, the stack has its recorded height. -/
theorem level (history : History stage moments machine) (calm : undisturbed moments = true) :
    machine.Level stage.program stage.signatures := by
  revert calm
  refine History.induction
    (motive := fun moments machine => undisturbed moments = true → machine.Level stage.program stage.signatures)
    (by simp [undisturbed]) ?_ history
  intro moments machine past level store present alike call single calm
  rw [undisturbed, Bool.or_eq_true, Bool.and_eq_true, Bool.not_eq_true'] at calm
  rw [← alike.program, ← alike.signatures] at level ⊢
  cases call with
  | selectNode name =>
    simp only [Machine.answer]
    rcases known : present.program.hasNode name with _ | _
    · simp only [Moment.enters, Moment.disturbs, Moment.succeeds_selectNode known, Bool.not_false, Bool.and_true,
        decide_eq_false_iff_not, Bool.false_eq_true, false_or] at calm
      exact Machine.selectNode_unknown_level (level calm.2) known calm.1
    · exact Machine.selectNode_known_level known
  | step =>
    simp only [Moment.enters, Moment.disturbs, Bool.and_eq_true, Bool.or_eq_false_iff, Bool.and_eq_false_iff,
      decide_eq_true_eq, decide_eq_false_iff_not, Moment.succeeds_step] at calm
    rcases calm with ⟨here, succeeds⟩ | ⟨⟨unjumped, unfailed⟩, before⟩
    · obtain ⟨node, current, here⟩ := Option.bind_eq_some_iff.mp here
      exact Machine.step_entered_level store current here succeeds
    · refine Machine.step_level (level before) store (fun node current here succeeds => ?_)
        (fun name message fails => ?_)
      · have jumped : Moment.instruction? (⟨machine, store, present, .step⟩ : Moment σ) = some .jump :=
          Option.bind_eq_some_iff.mpr ⟨node, current, here⟩
        rcases unjumped with elsewhere | refused
        · exact elsewhere jumped
        · rw [Moment.succeeds_step.mpr succeeds] at refused
          cases refused
      · rw [Moment.functionFailed_step fails] at unfailed
        cases unfailed
  | run => exact absurd rfl single
  | selectOption handle index =>
    have before := level (by simpa [Moment.enters, Moment.disturbs] using calm)
    simp only [Machine.answer]
    split
    next chosen accepted => exact Machine.selectOption_level before accepted
    next fault refused => exact before
  | stop =>
    simp only [Moment.enters, Moment.disturbs, decide_eq_false_iff_not, Bool.false_eq_true, false_or] at calm
    exact Machine.stop_level (level calm.2) calm.1

/-- No instruction of an accepted program refers to anything in vain. -/
theorem refuses_resolved (accepted : stage.program.check stage.signatures = .ok ())
    (history : History stage moments machine) {node : Node} {instruction : Instruction} {fault : Fault}
    (alike : present.Alike stage) (current : machine.currentNode? stage.program = some node)
    (here : node.instructions[machine.position]? = some instruction)
    (refuses : machine.counted.Refuses present node instruction fault) :
    (∀ index, fault ≠ .missingString index) ∧
      ∀ label, instruction.jumpTarget? = some label → ∀ node label, fault ≠ .unknownLabel node label := by
  have clean := (stage.program.check_node accepted current).1 instruction (List.mem_of_getElem? here)
  have resolves := history.resolves accepted
  cases refuses with
  | label target absent => exact absurd absent (Node.label_of_danglingReference? clean target)
  | dynamicLabel => exact ⟨by simp, by simp [Instruction.jumpTarget?]⟩
  | text read absent =>
    rw [alike.program] at absent
    exact absurd absent (Node.string_of_danglingReference? clean read)
  | option queued text absent =>
    rw [alike.program] at absent
    exact absurd absent (resolves _ queued _ text)
  | underflow | kind | function => exact ⟨by simp, by simp⟩

/-- Where the recorded heights are in force, no value is missed. -/
theorem refuses_enough (accepted : stage.program.check stage.signatures = .ok ())
    (level : machine.Level stage.program stage.signatures) {node : Node} {instruction : Instruction}
    (alike : present.Alike stage) (free : machine.status ≠ .waiting)
    (current : machine.currentNode? stage.program = some node)
    (here : node.instructions[machine.position]? = some instruction) {needed available : Nat} :
    ¬machine.counted.Refuses present node instruction (.stackUnderflow needed available) := by
  intro refuses
  obtain ⟨_, heights, explored⟩ := stage.program.check_node accepted current
  have recorded := level node heights instruction current explored here
  rw [Machine.height_of_free free] at recorded
  cases refuses with
  | underflow known short =>
    rw [alike.signatures] at known
    have enough := Node.heights_enough explored recorded here known
    exact absurd enough (Nat.not_le_of_lt short)

/-- The faults that the check is there to rule out. -/
def isRuledOut : Fault → Bool
  | .missingString _ | .unknownLabel _ _ | .stackUnderflow _ _ => true
  | _ => false

/-- Such a fault of a step comes from the instruction that the machine stands at. -/
theorem step_refused (alike : present.Alike stage) {store : σ} {fault : Fault}
    (failed : (machine.step store present).result = .error fault) (checked : isRuledOut fault = true) :
    ∃ node instruction, machine.status ≠ .waiting ∧ machine.currentNode? stage.program = some node ∧
      node.instructions[machine.position]? = some instruction ∧
      machine.counted.Refuses present node instruction fault := by
  rw [← alike.program]
  rcases Machine.step_error failed with
    rfl | rfl | ⟨_, rfl⟩ | ⟨_, rfl⟩ | ⟨_, _, rfl⟩ | ⟨_, rfl⟩ | refused
  any_goals cases checked
  exact refused

theorem step_resolved (accepted : stage.program.check stage.signatures = .ok ())
    (history : History stage moments machine) (alike : present.Alike stage) (store : σ) (index : UInt64) :
    (machine.step store present).result ≠ .error (.missingString index) := by
  intro failed
  obtain ⟨node, instruction, _, current, here, refuses⟩ := step_refused alike failed rfl
  exact (refuses_resolved accepted history alike current here refuses).1 index rfl

theorem answer_resolved (accepted : stage.program.check stage.signatures = .ok ())
    (history : History stage moments machine) (alike : present.Alike stage) (store : σ) (fuel : Nat) (call : HostCall)
    (index : UInt64) : (machine.answer store present fuel call).result ≠ .error (.missingString index) := by
  intro failed
  rcases Machine.answer_error failed with stepped | ran | mistake
  · exact step_resolved accepted history alike store index stepped
  · obtain ⟨steps, before, store, past, _, failed'⟩ := history.run_error alike ran
    exact step_resolved accepted past alike store index failed'
  · cases mistake

/-- The check is sound for the machine. Whatever the host of an accepted program has done and does next, no call
misses a text and no jump to a fixed label misses its target. As long as nothing has happened since the node was
entered that the check cannot see, no step misses a value, and the machine meets every instruction with the stack
height that the check has recorded for it. -/
theorem check_sound (accepted : stage.program.check stage.signatures = .ok ())
    (history : History stage moments machine) (alike : present.Alike stage) (store : σ) :
    (∀ fuel call index, (machine.answer store present fuel call).result ≠ .error (.missingString index)) ∧
    (∀ node instruction target, machine.currentNode? stage.program = some node →
      node.instructions[machine.position]? = some instruction → instruction.jumpTarget? = some target →
        ∀ name label, (machine.step store present).result ≠ .error (.unknownLabel name label)) ∧
    (undisturbed moments = true →
      (∀ needed available, (machine.step store present).result ≠ .error (.stackUnderflow needed available)) ∧
      ∀ node instruction, machine.status ≠ .waiting → machine.currentNode? stage.program = some node →
        node.instructions[machine.position]? = some instruction →
          ∃ heights, node.heights stage.signatures = .ok heights ∧
            heights[machine.position]? = some (some machine.stack.length)) := by
  refine ⟨answer_resolved accepted history alike store, ?_, fun calm => ⟨?_, ?_⟩⟩
  · intro node instruction target current here aimed name label failed
    obtain ⟨_, _, _, current', here', refuses⟩ := step_refused alike failed rfl
    cases current.symm.trans current'
    cases here.symm.trans here'
    exact (refuses_resolved accepted history alike current here refuses).2 target aimed name label rfl
  · intro needed available failed
    obtain ⟨_, _, free, current, here, refuses⟩ := step_refused alike failed rfl
    exact refuses_enough accepted (history.level calm) alike free current here refuses
  · intro node instruction free current here
    obtain ⟨_, heights, explored⟩ := stage.program.check_node accepted current
    have recorded := history.level calm node heights instruction current explored here
    rw [Machine.height_of_free free] at recorded
    exact ⟨heights, explored, recorded⟩

end History

section Quay

theorem quay_accepted : quay.check quayStage.signatures = .ok () := by cbv

theorem boardingMachine_history :
    ∃ moments : List (Moment Storage), History quayStage moments boardingMachine ∧ undisturbed moments = true := by
  have selected := (History.new (σ := Storage)).call .empty (.refl quayStage) 0 (.selectNode "Quay")
  have asked := selected.call .empty (.refl quayStage) 9 .run
  have chosen := asked.call .empty (.refl quayStage) 0 (.selectOption ⟨1, 2⟩ 0)
  exact ⟨_, chosen, rfl⟩

theorem check_sound_boardingMachine :
    ∃ moments : List (Moment Storage), quay.check quayStage.signatures = .ok () ∧
      History quayStage moments boardingMachine ∧ undisturbed moments = true ∧
      (∀ needed available,
        (boardingMachine.step Storage.empty quayStage).result ≠ .error (.stackUnderflow needed available)) ∧
      ∃ node heights, boardingMachine.currentNode? quay = some node ∧ node.heights quayStage.signatures = .ok heights ∧
        heights[3]? = some (some 1) := by
  obtain ⟨moments, history, calm⟩ := boardingMachine_history
  obtain ⟨_, _, sound⟩ := history.check_sound quay_accepted (.refl quayStage) Storage.empty
  obtain ⟨enough, recorded⟩ := sound calm
  obtain ⟨heights, explored, height⟩ := recorded _ .runNode (by decide) rfl rfl
  exact ⟨moments, quay_accepted, history, calm, enough, _, heights, rfl, explored, height⟩

end Quay

end Dialogue
