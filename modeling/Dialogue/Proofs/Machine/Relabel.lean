import Dialogue.Proofs.Check.Indices
import Dialogue.Proofs.Machine.Options
import Dialogue.Proofs.Storage

/-!
Machines that play alike in other words. A machine only hands on the string indices of its program and the tickets
that it counts, so with other numbers for them it does the same and says so in the other numbers; and of its store it
notices no more than what it reads. `Response.Alike` says this of two responses, and whatever an answer is made of,
from one instruction to a whole run, keeps it.
-/

namespace Dialogue

variable {σ τ α : Type}

/-- Other numbers for string indices, and another number to count tickets from. -/
structure Relabeling where
  index : UInt64 → UInt64
  start : Nat

/-- The new indices lead to the texts to which the old ones lead. -/
def Relabeling.Faithful (labels : Relabeling) (strings : List String) : Prop :=
  ∀ index : UInt64, strings[(labels.index index).toNat]? = strings[index.toNat]?

def Choice.relabel (labels : Relabeling) (choice : Choice) : Choice :=
  { choice with text := choice.text.map labels.index }

def Handle.relabel (labels : Relabeling) (handle : Handle) : Handle :=
  { handle with ticket := handle.ticket + labels.start }

def Event.relabel (labels : Relabeling) : Event → Event
  | .options texts handle => .options texts (handle.relabel labels)
  | other => other

def Fault.relabel (labels : Relabeling) : Fault → Fault
  | .missingString index => .missingString (labels.index index)
  | other => other

def HostCall.relabel (labels : Relabeling) : HostCall → HostCall
  | .selectOption handle index => .selectOption (handle.relabel labels) index
  | other => other

def Stage.relabel (labels : Relabeling) (stage : Stage) : Stage :=
  { stage with program := stage.program.mapInstructions (.mapIndex labels.index) }

def Machine.relabel (labels : Relabeling) (machine : Machine) : Machine :=
  { machine with pending := machine.pending.map (Choice.relabel labels), ticket := machine.ticket + labels.start }

/-- String indices stay what they are, and tickets are counted from another number. -/
def Relabeling.shift (start : Nat) : Relabeling := ⟨id, start⟩

theorem Relabeling.faithful_shift (start : Nat) (strings : List String) : (shift start).Faithful strings := fun _ => rfl

theorem Choice.relabel_shift (start : Nat) (choice : Choice) : choice.relabel (.shift start) = choice := by
  obtain ⟨text, destination⟩ := choice
  cases text <;> rfl

theorem Fault.relabel_shift (start : Nat) (fault : Fault) : fault.relabel (.shift start) = fault := by
  cases fault <;> rfl

theorem Stage.relabel_shift (start : Nat) (stage : Stage) : stage.relabel (.shift start) = stage := by
  have same : stage.program.mapInstructions (.mapIndex id) = stage.program :=
    Program.mapInstructions_eq_self.mpr fun _ _ instruction _ => instruction.mapIndex_id
  exact congrArg (fun program => { stage with program }) same

theorem Machine.relabel_shift (start : Nat) (machine : Machine) :
    machine.relabel (.shift start) = { machine with ticket := machine.ticket + start } := by
  have pending : machine.pending.map (Choice.relabel (.shift start)) = machine.pending := by
    rw [List.map_congr_left fun choice _ => choice.relabel_shift start, List.map_id']
  unfold Machine.relabel
  rw [pending]
  rfl

section Unshifted

variable {labels : Relabeling} (unshifted : labels.start = 0)

include unshifted

theorem Handle.relabel_unshifted (handle : Handle) : handle.relabel labels = handle := by
  unfold Handle.relabel
  rw [unshifted]
  rfl

theorem Event.relabel_unshifted (event : Event) : event.relabel labels = event := by
  cases event with
  | options texts handle => exact congrArg (Event.options texts) (handle.relabel_unshifted unshifted)
  | _ => rfl

theorem HostCall.relabel_unshifted (call : HostCall) : call.relabel labels = call := by
  cases call with
  | selectOption handle index =>
    exact congrArg (HostCall.selectOption · index) (handle.relabel_unshifted unshifted)
  | _ => rfl

end Unshifted

theorem Fault.isFatal_relabel (labels : Relabeling) (fault : Fault) :
    (fault.relabel labels).isFatal = fault.isFatal := by
  cases fault <;> rfl

/-- The two responses are the same but for labels and for stores, which match. -/
structure Response.Alike (labels : Relabeling) (same : σ → τ → Prop) (first : Response σ α) (second : Response τ α) :
    Prop where
  machine : second.machine = first.machine.relabel labels
  store : same first.store second.store
  events : second.events = first.events.map (Event.relabel labels)
  result : second.result = first.result.mapError (Fault.relabel labels)

section Program

variable (labels : Relabeling) (stage : Stage) (machine : Machine)

@[simp] theorem Stage.relabel_function? : (stage.relabel labels).function? = stage.function? := rfl

@[simp] theorem Machine.relabel_peek : (machine.relabel labels).toScene.peek = machine.toScene.peek := rfl

@[simp] theorem Machine.relabel_stack : (machine.relabel labels).stack = machine.stack := rfl

@[simp] theorem Machine.relabel_pending :
    (machine.relabel labels).pending = machine.pending.map (Choice.relabel labels) := rfl

theorem Program.string_relabel {program : Program} (faithful : labels.Faithful program.strings) (index : UInt64) :
    (program.mapInstructions (.mapIndex labels.index)).string (labels.index index) =
      (program.string index).mapError (Fault.relabel labels) := by
  have there : (program.mapInstructions (.mapIndex labels.index)).strings[(labels.index index).toNat]? =
      program.strings[index.toNat]? := faithful index
  unfold Program.string
  rw [there]
  cases program.strings[index.toNat]? <;> rfl

theorem Choice.shownText_relabel {program : Program} (faithful : labels.Faithful program.strings) (choice : Choice) :
    (choice.relabel labels).shownText (program.mapInstructions (.mapIndex labels.index)) =
      (choice.shownText program).mapError (Fault.relabel labels) := by
  obtain ⟨text, destination⟩ := choice
  cases text with
  | none => rfl
  | some index => exact program.string_relabel labels faithful index

theorem shownTexts_relabel {program : Program} (faithful : labels.Faithful program.strings) (options : List Choice) :
    (options.map (Choice.relabel labels)).mapM
        (Choice.shownText · (program.mapInstructions (.mapIndex labels.index))) =
      (options.mapM (Choice.shownText · program)).mapError (Fault.relabel labels) := by
  induction options with
  | nil => rfl
  | cons choice rest ih =>
    rw [List.map_cons, List.mapM_cons, List.mapM_cons, ih, Choice.shownText_relabel labels faithful]
    cases choice.shownText program with
    | error fault => rfl
    | ok text => cases rest.mapM (·.shownText program) <;> rfl

theorem Node.jump_relabel (node : Node) (label : String) :
    (node.mapInstructions (.mapIndex labels.index)).jump label = (node.jump label).mapError (Fault.relabel labels) := by
  unfold Node.jump
  rw [Node.labelIndex?_mapIndex]
  cases node.labelIndex? label <;> rfl

namespace Machine

theorem currentNode?_relabel :
    (machine.relabel labels).currentNode? (stage.relabel labels).program =
      (machine.currentNode? stage.program).map (Node.mapInstructions (.mapIndex labels.index)) := by
  change (machine.node.bind fun name => (stage.program.mapInstructions _).node? name) = _
  unfold currentNode?
  cases machine.node with
  | none => rfl
  | some name => exact stage.program.node?_mapInstructions _ name

theorem limitFault?_relabel (instruction : Instruction) :
    (machine.relabel labels).limitFault? (stage.relabel labels) (instruction.mapIndex labels.index) =
      machine.limitFault? stage instruction := by
  unfold limitFault?
  rw [Instruction.effect?_mapIndex]
  rfl

theorem atEnd_relabel :
    (machine.relabel labels).atEnd (stage.relabel labels).program = machine.atEnd stage.program := by
  unfold atEnd
  rw [currentNode?_relabel]
  cases machine.currentNode? stage.program with
  | none => rfl
  | some node =>
    change decide ((node.instructions.map _).length ≤ machine.position) = _
    rw [List.length_map]

theorem failed_relabel (fault : Fault) :
    (machine.relabel labels).failed (fault.relabel labels) = (machine.failed fault).relabel labels := by
  unfold failed
  rw [Fault.isFatal_relabel]
  split <;> rfl

/-- What is wrong with the top of the stack has no labels. -/
theorem peek_fault {read : Value → Except Fault α}
    (kinds : ∀ {value fault}, read value = .error fault → ∃ expected found, fault = .typeMismatch expected found)
    {fault : Fault} (failed : machine.toScene.peek.bind read = .error fault) : fault.relabel labels = fault := by
  unfold Scene.peek at failed
  cases top : machine.stack with
  | nil =>
    rw [top] at failed
    cases failed
    rfl
  | cons value rest =>
    rw [top] at failed
    obtain ⟨expected, found, rfl⟩ := kinds failed
    rfl

theorem peek_bind_relabel {β : Type} {read : Value → Except Fault α}
    (kinds : ∀ {value fault}, read value = .error fault → ∃ expected found, fault = .typeMismatch expected found)
    {first second : α → Except Fault β}
    (follows : ∀ answer, second answer = (first answer).mapError (Fault.relabel labels)) :
    (machine.toScene.peek.bind read).bind second =
      ((machine.toScene.peek.bind read).bind first).mapError (Fault.relabel labels) := by
  cases found : machine.toScene.peek.bind read with
  | error fault => exact congrArg Except.error (peek_fault labels machine kinds found).symm
  | ok answer => exact follows answer

end Machine

end Program

/-- Whatever variable the moments read has the same value in every store that matches. -/
def ReadsAlike [VariableStore σ] [VariableStore τ] (same : σ → τ → Prop) (moments : List (Moment σ)) : Prop :=
  ∀ moment ∈ moments, ∀ name, moment.executed? = some (.pushVariable name) →
    ∀ other, same moment.store other → VariableStore.read moment.store name = VariableStore.read other name

section Execution

variable {labels : Relabeling} {same : σ → τ → Prop} {store : σ} {other : τ} {stage : Stage} {machine : Machine}
  {node : Node}

namespace Machine

theorem proceed_alike (stores : same store other) {outcome second : Except Fault Scene}
    (follows : second = (outcome.map fun scene =>
      { scene with pending := scene.pending.map (Choice.relabel labels) }).mapError (Fault.relabel labels)) :
    (machine.proceed store outcome).Alike labels same ((machine.relabel labels).proceed other second) := by
  subst follows
  cases outcome <;> exact ⟨rfl, stores, rfl, rfl⟩

theorem tell_alike (stores : same store other) {event second : Except Fault Event}
    (follows : second = (event.map (Event.relabel labels)).mapError (Fault.relabel labels)) :
    (machine.tell store event).Alike labels same ((machine.relabel labels).tell other second) := by
  subst follows
  cases event <;> exact ⟨rfl, stores, rfl, rfl⟩

theorem complete_alike (stores : same store other) (result : α) :
    (machine.complete store result).Alike labels same ((machine.relabel labels).complete other result) :=
  ⟨rfl, stores, rfl, rfl⟩

theorem showOptions_alike (faithful : labels.Faithful stage.program.strings) (stores : same store other) :
    (machine.showOptions store stage.program).Alike labels same
      ((machine.relabel labels).showOptions other (stage.relabel labels).program) := by
  by_cases empty : machine.pending = []
  · have also : (machine.relabel labels).pending = [] := by rw [relabel_pending, empty, List.map_nil]
    unfold showOptions
    rw [empty, also]
    exact complete_alike stores _
  · by_cases unasked : ∃ destination, machine.pending = [⟨none, destination⟩]
    · obtain ⟨destination, alone⟩ := unasked
      have also : (machine.relabel labels).pending = [⟨none, destination⟩] := by rw [relabel_pending, alone]; rfl
      rw [showOptions_alone alone, showOptions_alone also]
      exact ⟨rfl, stores, rfl, rfl⟩
    · have asks : ∀ destination, machine.pending ≠ [⟨none, destination⟩] := fun destination alone =>
        unasked ⟨destination, alone⟩
      have nonempty : (machine.relabel labels).pending ≠ [] := fun also => empty (List.map_eq_nil_iff.mp also)
      have asksToo : ∀ destination, (machine.relabel labels).pending ≠ [⟨none, destination⟩] := by
        intro destination also
        obtain ⟨⟨text, shown⟩, alone, labeled⟩ := List.map_eq_singleton_iff.mp also
        cases text <;> cases labeled
        exact asks _ alone
      have shown : (machine.relabel labels).pending.mapM (Choice.shownText · (stage.relabel labels).program) =
          (machine.pending.mapM (Choice.shownText · stage.program)).mapError (Fault.relabel labels) :=
        shownTexts_relabel labels faithful machine.pending
      rw [showOptions_open empty asks, showOptions_open nonempty asksToo, shown]
      cases machine.pending.mapM (·.shownText stage.program) with
      | error fault => exact ⟨rfl, stores, rfl, rfl⟩
      | ok texts =>
        have later : (machine.relabel labels).ticket + 1 = machine.ticket + 1 + labels.start := Nat.add_right_comm _ _ _
        refine ⟨?_, stores, ?_, rfl⟩
        · rw [later]; rfl
        · rw [later]; rfl

theorem callFunction_alike (stores : same store other) (name : String) :
    (machine.callFunction store stage name).Alike labels same
      ((machine.relabel labels).callFunction other (stage.relabel labels) name) := by
  unfold callFunction Scene.popMany
  rw [Stage.relabel_function?]
  cases stage.function? name with
  | none => exact ⟨rfl, stores, rfl, rfl⟩
  | some function =>
    by_cases short : machine.stack.length < function.arity
    · have also : (machine.relabel labels).stack.length < function.arity := short
      simp only [if_pos short, if_pos also]
      exact ⟨rfl, stores, rfl, rfl⟩
    · have also : ¬(machine.relabel labels).stack.length < function.arity := short
      simp only [if_neg short, if_neg also]
      rw [relabel_stack]
      cases function.body (machine.stack.take function.arity).reverse with
      | error message => exact ⟨rfl, stores, rfl, rfl⟩
      | ok value => cases function.returnsValue <;> exact proceed_alike stores rfl

theorem runNode_alike (stores : same store other) :
    (machine.runNode store stage.program).Alike labels same
      ((machine.relabel labels).runNode other (stage.relabel labels).program) := by
  unfold runNode
  rw [relabel_peek]
  cases read : machine.toScene.peek.bind Value.asString with
  | error fault =>
    exact ⟨rfl, stores, rfl, congrArg Except.error (peek_fault labels machine asString_error read).symm⟩
  | ok name =>
    have known : (stage.relabel labels).program.hasNode name = stage.program.hasNode name :=
      stage.program.hasNode_mapInstructions _ name
    simp only [load, known]
    split <;> exact ⟨rfl, stores, rfl, rfl⟩

variable [VariableStore σ] [VariableStore τ]

theorem storeVariable_alike (writes : KeptByWrites same) (stores : same store other) (name : String) :
    (machine.storeVariable store name).Alike labels same ((machine.relabel labels).storeVariable other name) := by
  unfold storeVariable
  rw [relabel_peek]
  cases read : machine.toScene.peek.bind Value.asNumber with
  | error fault =>
    exact ⟨rfl, stores, rfl, congrArg Except.error (peek_fault labels machine asNumber_error read).symm⟩
  | ok value => exact ⟨rfl, writes stores name value, rfl, rfl⟩

theorem execute_alike (faithful : labels.Faithful stage.program.strings) (writes : KeptByWrites same)
    (stores : same store other) (instruction : Instruction)
    (reads : ∀ name, instruction = .pushVariable name →
      VariableStore.read store name = VariableStore.read other name) :
    (machine.execute store stage node instruction).Alike labels same
      ((machine.relabel labels).execute other (stage.relabel labels) (node.mapInstructions (.mapIndex labels.index))
        (instruction.mapIndex labels.index)) := by
  have string (index : UInt64) : (stage.relabel labels).program.string (labels.index index) =
      (stage.program.string index).mapError (Fault.relabel labels) := stage.program.string_relabel labels faithful index
  cases instruction with
  | label name => exact ⟨rfl, stores, rfl, rfl⟩
  | jumpTo target => exact ⟨rfl, stores, rfl, node.jump_relabel labels target⟩
  | jump => exact ⟨rfl, stores, rfl, peek_bind_relabel labels machine asString_error (node.jump_relabel labels)⟩
  | jumpIfFalse target =>
    refine ⟨rfl, stores, rfl, peek_bind_relabel labels machine asBool_error fun holds => ?_⟩
    cases holds with
    | true => rfl
    | false => exact node.jump_relabel labels target
  | runLine index =>
    refine tell_alike stores ?_
    rw [string]
    cases stage.program.string index <;> rfl
  | runCommand text => exact ⟨rfl, stores, rfl, rfl⟩
  | addOption text destination =>
    refine ⟨?_, stores, rfl, rfl⟩
    simp only [execute, Instruction.mapIndex, proceed, Scene.queue, Machine.relabel, Choice.relabel, List.map_append,
      List.map_cons, List.map_nil]
  | showOptions => exact showOptions_alike faithful stores
  | pushString index =>
    refine proceed_alike stores ?_
    rw [string]
    cases stage.program.string index <;> rfl
  | pushNumber value => exact ⟨rfl, stores, rfl, rfl⟩
  | pushBool value => exact ⟨rfl, stores, rfl, rfl⟩
  | pushNull => exact ⟨rfl, stores, rfl, rfl⟩
  | pop =>
    refine proceed_alike stores ?_
    unfold Scene.pop
    rw [relabel_stack]
    cases machine.stack <;> rfl
  | callFunction name => exact callFunction_alike stores name
  | pushVariable name =>
    refine ⟨?_, stores, rfl, rfl⟩
    simp only [execute, Instruction.mapIndex, proceed, Scene.push, Machine.relabel, reads name rfl]
  | storeVariable name => exact storeVariable_alike writes stores name
  | stop => exact complete_alike stores _
  | runNode => exact runNode_alike stores

end Machine

namespace Response

theorem arrive_alike {first : Response σ Flow} {second : Response τ Flow} (alike : first.Alike labels same second)
    (position : Nat) :
    (first.arrive stage.program position).Alike labels same
      (second.arrive (stage.relabel labels).program position) := by
  obtain ⟨machine, other, events, result⟩ := second
  obtain ⟨rfl, stores, rfl, _⟩ := alike
  have atEnd : ({ first.machine.relabel labels with position } : Machine).atEnd (stage.relabel labels).program =
      ({ first.machine with position } : Machine).atEnd stage.program :=
    Machine.atEnd_relabel labels stage { first.machine with position }
  rw [arrive_eq, arrive_eq, atEnd]
  split
  · exact ⟨rfl, stores, by rw [List.map_append]; rfl, rfl⟩
  · exact ⟨rfl, stores, rfl, rfl⟩

theorem settle_alike {first : Response σ Flow} {second : Response τ Flow} (alike : first.Alike labels same second) :
    (first.settle stage.program).Alike labels same (second.settle (stage.relabel labels).program) := by
  have result := alike.result
  have place : second.machine.position = first.machine.position := congrArg (·.position) alike.machine
  rcases same : first.result with fault | flow
  · rw [same] at result
    rw [settle_error same, settle_error result, alike.machine, Machine.failed_relabel]
    exact ⟨rfl, alike.store, alike.events, rfl⟩
  · rw [same] at result
    cases flow with
    | advance =>
      rw [settle_advance same, settle_advance result, place]
      exact arrive_alike alike _
    | jump target =>
      rw [settle_jump same, settle_jump result]
      exact arrive_alike alike _
    | entered =>
      rw [settle_entered same, settle_entered result, place]
      exact arrive_alike alike _
    | suspended =>
      rw [settle_suspended same, settle_suspended result, place, alike.machine]
      exact ⟨rfl, alike.store, alike.events, rfl⟩
    | halted =>
      rw [settle_halted same, settle_halted result]
      exact ⟨alike.machine, alike.store, alike.events, rfl⟩

theorem after_alike {first : Response σ α} {second : Response τ α} (alike : first.Alike labels same second)
    (earlier : List Event) :
    (first.after earlier).Alike labels same (second.after (earlier.map (Event.relabel labels))) :=
  ⟨alike.machine, alike.store, by rw [after, after, alike.events, List.map_append], alike.result⟩

theorem map_alike {β : Type} {first : Response σ α} {second : Response τ α} (alike : first.Alike labels same second)
    (f : α → β) :
    ({ first with result := first.result.map f } : Response σ β).Alike labels same
      { second with result := second.result.map f } := by
  refine ⟨alike.machine, alike.store, alike.events, ?_⟩
  change second.result.map f = (first.result.map f).mapError _
  rw [alike.result]
  cases first.result <;> rfl

end Response

namespace Machine

variable [VariableStore σ] [VariableStore τ]

theorem step_alike (faithful : labels.Faithful stage.program.strings) (writes : KeptByWrites same)
    (stores : same store other)
    (reads : ∀ name, machine.Reaches stage (.pushVariable name) →
      VariableStore.read store name = VariableStore.read other name) :
    (machine.step store stage).Alike labels same ((machine.relabel labels).step other (stage.relabel labels)) := by
  by_cases free : machine.status = .waiting
  · have also : (machine.relabel labels).status = .waiting := free
    rw [step_waiting free, step_waiting also]
    exact ⟨rfl, stores, rfl, rfl⟩
  · have also : (machine.relabel labels).status ≠ .waiting := free
    have there := currentNode?_relabel labels stage machine
    cases current : machine.currentNode? stage.program with
    | none =>
      rw [current, Option.map_none] at there
      rw [step_nowhere free current, step_nowhere also there]
      exact ⟨rfl, stores, rfl, rfl⟩
    | some node =>
      rw [current, Option.map_some] at there
      have stands : (node.mapInstructions (.mapIndex labels.index)).instructions[(machine.relabel labels).position]? =
          node.instructions[machine.position]?.map (.mapIndex labels.index) := List.getElem?_map
      cases here : node.instructions[machine.position]? with
      | none =>
        rw [here, Option.map_none] at stands
        rw [step_finished free current here, step_finished also there stands]
        exact ⟨rfl, stores, rfl, rfl⟩
      | some instruction =>
        rw [here, Option.map_some] at stands
        have limit : (machine.relabel labels).counted.limitFault? (stage.relabel labels)
            (instruction.mapIndex labels.index) = machine.counted.limitFault? stage instruction :=
          limitFault?_relabel labels stage machine.counted instruction
        cases allowed : machine.counted.limitFault? stage instruction with
        | some fault =>
          have plain : fault.relabel labels = fault := by
            rcases limitFault?_cases allowed with ⟨bound, rfl⟩ | ⟨bound, rfl⟩ <;> rfl
          rw [allowed] at limit
          rw [step_limited free current here allowed, step_limited also there stands limit]
          exact ⟨rfl, stores, rfl, congrArg Except.error plain.symm⟩
        | none =>
          rw [allowed] at limit
          rw [step_executed free current here allowed, step_executed also there stands limit]
          refine Response.settle_alike (execute_alike faithful writes stores instruction fun name is => ?_)
          subst is
          exact reads name ⟨free, ⟨node, current, here⟩, allowed⟩

theorem run_alike (faithful : labels.Faithful stage.program.strings) (writes : KeptByWrites same)
    (stores : same store other) {fuel : Nat} (reads : ReadsAlike same (machine.stepsOf store stage fuel)) :
    (machine.run store stage fuel).Alike labels same
      ((machine.relabel labels).run other (stage.relabel labels) fuel) := by
  induction fuel generalizing machine store other with
  | zero => exact ⟨rfl, stores, rfl, rfl⟩
  | succ fuel ih =>
    have here : (⟨machine, store, stage, .step⟩ : Moment σ) ∈ machine.stepsOf store stage (fuel + 1) := by
      rcases machine.run_cases store stage fuel with ⟨_, _, steps, _⟩ | ⟨_, steps⟩ <;> simp [steps]
    have stepped := step_alike faithful writes stores fun name reaches =>
      reads _ here name (reaches.executed?_pushVariable store) other stores
    rw [stepsOf] at reads
    have also := stepped.result
    rw [run_succ, run_succ]
    rcases result : (machine.step store stage).result with fault | ⟨⟩
    · rw [result] at also
      rw [also]
      exact ⟨stepped.machine, stepped.store, stepped.events, rfl⟩
    · have status : ((machine.relabel labels).step other (stage.relabel labels)).machine.status =
          (machine.step store stage).machine.status := by rw [stepped.machine]; rfl
      rw [result] at also
      rw [also, status]
      by_cases halted : (machine.step store stage).machine.status ≠ .running
      · rw [if_pos halted, if_pos halted]
        exact ⟨stepped.machine, stepped.store, stepped.events, rfl⟩
      · rw [if_neg halted, if_neg halted, stepped.machine, stepped.events]
        simp only [result, if_neg halted] at reads
        exact Response.after_alike
          (ih stepped.store fun moment member => reads moment (List.mem_append_left _ member)) _

theorem selectNode_alike (stores : same store other) (name : String) (fuel : Nat) :
    (machine.answer store stage fuel (.selectNode name)).Alike labels same
      ((machine.relabel labels).answer other (stage.relabel labels) fuel (.selectNode name)) := by
  have known : (stage.relabel labels).program.hasNode name = stage.program.hasNode name :=
    stage.program.hasNode_mapInstructions _ name
  cases has : stage.program.hasNode name with
  | true =>
    simp only [answer, selectNode_known has, selectNode_known (known.trans has)]
    exact ⟨rfl, stores, rfl, rfl⟩
  | false =>
    simp only [answer, selectNode_unknown has, selectNode_unknown (known.trans has)]
    refine ⟨?_, stores, rfl, rfl⟩
    by_cases waiting : machine.status = .waiting <;> simp [Machine.relabel, waiting]

theorem selectOption_alike (stores : same store other) (handle : Handle) (index fuel : Nat) :
    (machine.answer store stage fuel (.selectOption handle index)).Alike labels same
      ((machine.relabel labels).answer other (stage.relabel labels) fuel
        (.selectOption (handle.relabel labels) index)) := by
  have tickets : (handle.relabel labels).ticket = (machine.relabel labels).ticket ↔ handle.ticket = machine.ticket :=
    Nat.add_right_cancel_iff
  by_cases foreign : machine.status ≠ .waiting ∨ handle.ticket ≠ machine.ticket
  · have also : (machine.relabel labels).status ≠ .waiting ∨
        (handle.relabel labels).ticket ≠ (machine.relabel labels).ticket :=
      foreign.imp_right fun differs => differs ∘ tickets.mp
    rw [answer_rejected (selectOption_foreign foreign index), answer_rejected (selectOption_foreign also index)]
    exact ⟨rfl, stores, rfl, rfl⟩
  · obtain ⟨waits, current⟩ := not_or.mp foreign
    have waiting : machine.status = .waiting := Decidable.not_not.mp waits
    have ticket : handle.ticket = machine.ticket := Decidable.not_not.mp current
    by_cases inside : index < machine.pending.length
    · have found : machine.pending[index]? = some machine.pending[index] := List.getElem?_eq_getElem inside
      have also : (machine.relabel labels).pending[index]? = some (machine.pending[index].relabel labels) := by
        rw [relabel_pending, List.getElem?_map, found, Option.map_some]
      have chosen : (machine.relabel labels).selectOption (handle.relabel labels) index = .ok _ :=
        selectOption_chosen waiting (tickets.mpr ticket) also
      rw [answer_chosen (selectOption_chosen waiting ticket found), answer_chosen chosen]
      exact ⟨rfl, stores, rfl, rfl⟩
    · have beyond : machine.pending.length ≤ index := Nat.le_of_not_lt inside
      have length : (machine.relabel labels).pending.length = machine.pending.length := List.length_map _
      have refused : (machine.relabel labels).selectOption (handle.relabel labels) index = .error _ :=
        selectOption_outOfRange waiting (tickets.mpr ticket) (length.symm ▸ beyond)
      rw [length] at refused
      rw [answer_rejected (selectOption_outOfRange waiting ticket beyond), answer_rejected refused]
      exact ⟨rfl, stores, rfl, rfl⟩

/-- Whatever the host asks, both machines answer alike. -/
theorem answer_alike (faithful : labels.Faithful stage.program.strings) (writes : KeptByWrites same)
    (stores : same store other) {fuel : Nat} {call : HostCall}
    (reads : ReadsAlike same (machine.momentsOf store stage fuel call)) :
    (machine.answer store stage fuel call).Alike labels same
      ((machine.relabel labels).answer other (stage.relabel labels) fuel (call.relabel labels)) := by
  cases call with
  | selectNode name => exact selectNode_alike stores name fuel
  | step =>
    have stepped := step_alike faithful writes stores fun name reaches =>
      reads _ (List.mem_singleton_self _) name (reaches.executed?_pushVariable store) other stores
    exact Response.map_alike stepped _
  | run => exact Response.map_alike (run_alike faithful writes stores reads) _
  | selectOption handle index => exact selectOption_alike stores handle index fuel
  | stop => exact ⟨rfl, stores, rfl, rfl⟩

end Machine

end Execution

end Dialogue
