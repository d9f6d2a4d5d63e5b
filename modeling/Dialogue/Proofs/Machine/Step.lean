import Dialogue.Machine.Host

/-!
What a step can do, said once. `Executes` lists the ways in which an instruction may end, each with the whole
response of the machine, and `Steps` does the same for a step around it. Every law of the machine is read off
these two relations, so that no proof has to open the execution again.
-/

namespace Dialogue

variable {σ : Type}

/-- The event of an instruction that only tells the host something. -/
def Instruction.told? (program : Program) : Instruction → Option Event
  | .runLine index => program.strings[index.toNat]?.map .line
  | .runCommand text => some (.command text)
  | _ => none

/-- The value that an instruction pushes without looking at the stack. -/
def Instruction.pushed? (program : Program) (read : String → Number) : Instruction → Option Value
  | .pushString index => program.strings[index.toNat]?.map .string
  | .pushNumber value => some (.number value)
  | .pushBool value => some (.bool value)
  | .pushNull => some .null
  | .pushVariable name => some (.number (read name))
  | _ => none

/-- Whether options are taken unasked, as a single one without a text is. -/
def isTakenUnasked : List Choice → Bool
  | [⟨none, _⟩] => true
  | _ => false

theorem isTakenUnasked_iff {options : List Choice} :
    isTakenUnasked options = true ↔ ∃ destination, options = [⟨none, destination⟩] := by
  unfold isTakenUnasked
  split
  next destination => simp
  next other =>
    constructor
    · intro taken
      cases taken
    · rintro ⟨destination, alone⟩
      exact absurd alone (other destination)

/-- What an instruction that succeeds makes of the queue. -/
def Instruction.queueAfter (pending : List Choice) : Instruction → List Choice
  | .addOption text destination => pending ++ [⟨text, destination⟩]
  | .runNode => []
  | .showOptions => if isTakenUnasked pending then [] else pending
  | _ => pending

theorem Instruction.effect?_of_told {program : Program} {instruction : Instruction} {event : Event}
    (tells : instruction.told? program = some event) (signature? : Signatures) :
    instruction.effect? signature? = some ⟨0, 0⟩ := by
  cases instruction with
  | runLine | runCommand => rfl
  | _ => cases tells

theorem Instruction.effect?_of_pushed {program : Program} {read : String → Number} {instruction : Instruction}
    {value : Value} (pushes : instruction.pushed? program read = some value) (signature? : Signatures) :
    instruction.effect? signature? = some ⟨0, 1⟩ := by
  cases instruction with
  | pushString | pushNumber | pushBool | pushNull | pushVariable => rfl
  | _ => cases pushes

/-- Only a function that is not known has no effect in the table. -/
theorem Instruction.effect?_eq_none {signature? : Signatures} {instruction : Instruction} :
    instruction.effect? signature? = none ↔ ∃ name, instruction = .callFunction name ∧ signature? name = none := by
  cases instruction <;> simp [effect?]

theorem Instruction.effect?_callFunction {stage : Stage} {name : String} {function : Function}
    (known : stage.function? name = some function) :
    (Instruction.callFunction name).effect? stage.signatures = some ⟨function.arity, function.returnsValue.toNat⟩ := by
  simp [Instruction.effect?, Stage.signatures, known]

/-- The successes that the table does not tell of: a node is entered, or options are shown and no destination is put
on the stack yet. -/
def Instruction.Departs (instruction : Instruction) (machine : Machine) (flow : Flow) : Prop :=
  instruction = .runNode ∨ instruction = .showOptions ∧ (machine.pending = [] ∨ flow = .suspended)

namespace Machine

/-- Why an instruction leaves the machine as it is. -/
inductive Refuses (machine : Machine) (stage : Stage) (node : Node) : Instruction → Fault → Prop
  | label {instruction : Instruction} {label : String} (target : instruction.jumpTarget? = some label)
      (absent : node.labelIndex? label = none) : Refuses machine stage node instruction (.unknownLabel node.name label)
  | dynamicLabel {label : String} {rest : List Value} (top : machine.stack = .string label :: rest)
      (absent : node.labelIndex? label = none) : Refuses machine stage node .jump (.unknownLabel node.name label)
  | text {instruction : Instruction} {index : UInt64} (read : instruction.stringIndex? = some index)
      (absent : stage.program.strings[index.toNat]? = none) :
      Refuses machine stage node instruction (.missingString index)
  | option {choice : Choice} {index : UInt64} (queued : choice ∈ machine.pending) (text : choice.text = some index)
      (absent : stage.program.strings[index.toNat]? = none) :
      Refuses machine stage node .showOptions (.missingString index)
  | underflow {instruction : Instruction} {effect : Effect} (known : instruction.effect? stage.signatures = some effect)
      (short : machine.stack.length < effect.pops) :
      Refuses machine stage node instruction (.stackUnderflow effect.pops machine.stack.length)
  | kind {instruction : Instruction} (expected found : Kind) :
      Refuses machine stage node instruction (.typeMismatch expected found)
  | function {name : String} (absent : stage.function? name = none) :
      Refuses machine stage node (.callFunction name) (.unknownFunction name)

/-- The ways in which an instruction of a node may end, and the response to each. -/
inductive Executes [VariableStore σ] (machine : Machine) (store : σ) (stage : Stage) (node : Node) :
    Instruction → Response σ Flow → Prop
  | refused {instruction : Instruction} {fault : Fault} (reason : machine.Refuses stage node instruction fault) :
      Executes machine store stage node instruction ⟨machine, store, [], .error fault⟩
  | passed (name : String) : Executes machine store stage node (.label name) ⟨machine, store, [], .ok .advance⟩
  | held (label : String) {rest : List Value} (top : machine.stack = .bool true :: rest) :
      Executes machine store stage node (.jumpIfFalse label) ⟨machine, store, [], .ok .advance⟩
  | told {instruction : Instruction} {event : Event} (tells : instruction.told? stage.program = some event) :
      Executes machine store stage node instruction ⟨machine, store, [event], .ok .advance⟩
  | queued (text : Option UInt64) (destination : String) :
      Executes machine store stage node (.addOption text destination)
        ⟨{ machine with pending := machine.pending ++ [⟨text, destination⟩] }, store, [], .ok .advance⟩
  | pushed {instruction : Instruction} {value : Value}
      (pushes : instruction.pushed? stage.program (VariableStore.read store) = some value) :
      Executes machine store stage node instruction
        ⟨{ machine with stack := value :: machine.stack }, store, [], .ok .advance⟩
  | popped {value : Value} {rest : List Value} (top : machine.stack = value :: rest) :
      Executes machine store stage node .pop ⟨{ machine with stack := rest }, store, [], .ok .advance⟩
  | called {name : String} {function : Function} {value : Value} (known : stage.function? name = some function)
      (enough : function.arity ≤ machine.stack.length)
      (answered : function.body (machine.stack.take function.arity).reverse = .ok value) :
      Executes machine store stage node (.callFunction name)
        ⟨{ machine with stack := (if function.returnsValue then [value] else []) ++ machine.stack.drop function.arity },
          store, [], .ok .advance⟩
  | callFailed {name message : String} {function : Function} (known : stage.function? name = some function)
      (enough : function.arity ≤ machine.stack.length)
      (failed : function.body (machine.stack.take function.arity).reverse = .error message) :
      Executes machine store stage node (.callFunction name)
        ⟨{ machine with stack := machine.stack.drop function.arity }, store, [], .error (.functionFailed name message)⟩
  | stored {name : String} {value : Number} {rest : List Value} (top : machine.stack = .number value :: rest) :
      Executes machine store stage node (.storeVariable name)
        ⟨machine, VariableStore.write store name value, [], .ok .advance⟩
  | jumped {instruction : Instruction} {label : String} {target : Nat} (aimed : instruction.jumpTarget? = some label)
      (found : node.labelIndex? label = some target)
      (enough : instruction = .jumpIfFalse label → ∃ rest, machine.stack = .bool false :: rest) :
      Executes machine store stage node instruction ⟨machine, store, [], .ok (.jump target)⟩
  | jumpedDynamically {label : String} {target : Nat} {rest : List Value} (top : machine.stack = .string label :: rest)
      (found : node.labelIndex? label = some target) :
      Executes machine store stage node .jump ⟨machine, store, [], .ok (.jump target)⟩
  | entered {name : String} {rest : List Value} (top : machine.stack = .string name :: rest)
      (known : stage.program.hasNode name = true) :
      Executes machine store stage node .runNode
        ⟨{ machine with node := some name, position := 0, stack := [], pending := [] }, store, [], .ok .entered⟩
  | lost {name : String} {rest : List Value} (top : machine.stack = .string name :: rest)
      (unknown : stage.program.hasNode name = false) :
      Executes machine store stage node .runNode
        ⟨{ machine with status := .stopped }, store, [], .error (.unknownNode name)⟩
  | stopped : Executes machine store stage node .stop
      ⟨{ machine with status := .stopped }, store, [.complete], .ok .halted⟩
  | nothingShown (empty : machine.pending = []) : Executes machine store stage node .showOptions
      ⟨{ machine with status := .stopped }, store, [.complete], .ok .halted⟩
  | taken {destination : String} (alone : machine.pending = [⟨none, destination⟩]) :
      Executes machine store stage node .showOptions
        ⟨{ machine with stack := .string destination :: machine.stack, pending := [] }, store, [], .ok .advance⟩
  | prompted {texts : List String} (some : machine.pending ≠ [])
      (open_ : ∀ destination, machine.pending ≠ [⟨none, destination⟩])
      (resolved : machine.pending.mapM (·.shownText stage.program) = .ok texts) :
      Executes machine store stage node .showOptions
        ⟨{ machine with status := .waiting, ticket := machine.ticket + 1 }, store,
          [.options texts ⟨machine.ticket + 1, texts.length⟩], .ok .suspended⟩

theorem string_cases (program : Program) (index : UInt64) :
    (∃ text, program.strings[index.toNat]? = some text ∧ program.string index = .ok text) ∨
      program.strings[index.toNat]? = none ∧ program.string index = .error (.missingString index) := by
  unfold Program.string
  cases found : program.strings[index.toNat]? with
  | none => exact .inr ⟨rfl, rfl⟩
  | some text => exact .inl ⟨text, rfl, rfl⟩

theorem shownText_error {program : Program} {options : List Choice} {fault : Fault}
    (failed : options.mapM (·.shownText program) = .error fault) :
    ∃ choice ∈ options, ∃ index, choice.text = some index ∧ program.strings[index.toNat]? = none ∧
      fault = .missingString index := by
  induction options with
  | nil => simp [pure, Except.pure] at failed
  | cons choice rest ih =>
    rw [List.mapM_cons] at failed
    cases shown : choice.shownText program with
    | error other =>
      rw [shown] at failed
      cases failed
      unfold Choice.shownText at shown
      cases text : choice.text with
      | none => simp [text] at shown
      | some index =>
        simp only [text] at shown
        rcases string_cases program index with ⟨_, _, found⟩ | ⟨absent, missing⟩
        · rw [found] at shown
          cases shown
        · rw [missing] at shown
          cases shown
          exact ⟨choice, List.mem_cons_self, index, text, absent, rfl⟩
    | ok text =>
      rw [shown] at failed
      cases others : rest.mapM (·.shownText program) with
      | ok texts => rw [others] at failed; cases failed
      | error other =>
        rw [others] at failed
        cases failed
        obtain ⟨found, member, rest⟩ := ih others
        exact ⟨found, List.mem_cons_of_mem choice member, rest⟩

theorem showOptions_executes [VariableStore σ] (machine : Machine) (store : σ) (stage : Stage) (node : Node) :
    machine.Executes store stage node .showOptions (machine.showOptions store stage.program) := by
  unfold showOptions
  split
  next empty => exact .nothingShown empty
  next destination alone => exact .taken alone
  next options some open_ =>
    split
    next fault failed =>
      obtain ⟨choice, member, index, text, absent, rfl⟩ := shownText_error failed
      exact .refused (.option member text absent)
    next texts resolved => exact .prompted some open_ resolved

theorem callFunction_executes [VariableStore σ] (machine : Machine) (store : σ) (stage : Stage) (node : Node)
    (name : String) :
    machine.Executes store stage node (.callFunction name) (machine.callFunction store stage name) := by
  unfold callFunction Scene.popMany
  split
  next absent => exact .refused (.function absent)
  next function known =>
    by_cases short : machine.stack.length < function.arity
    · rw [if_pos short]
      exact .refused (.underflow (Instruction.effect?_callFunction known) short)
    · rw [if_neg short]
      dsimp only
      split
      next message failed => exact .callFailed known (by omega) failed
      next value answered =>
        have called : machine.Executes store stage node (.callFunction name) _ := .called known (by omega) answered
        cases returns : function.returnsValue <;> simpa [returns, proceed, Scene.push] using called

/-- The top of the stack of the kind that an instruction asks for, or why it is refused. -/
theorem peek_cases {α : Type} (machine : Machine) (stage : Stage) (node : Node) (instruction : Instruction)
    (known : instruction.effect? stage.signatures = some ⟨1, 1⟩) (read : Value → Except Fault α)
    (kinds : ∀ value fault, read value = .error fault → ∃ expected found, fault = .typeMismatch expected found) :
    (∃ value rest answer, machine.stack = value :: rest ∧ read value = .ok answer ∧
      machine.toScene.peek.bind read = .ok answer) ∨
    ∃ fault, machine.Refuses stage node instruction fault ∧ machine.toScene.peek.bind read = .error fault := by
  unfold Scene.peek
  cases top : machine.stack with
  | nil =>
    have refused : machine.Refuses stage node instruction _ := .underflow known (by rw [top]; decide)
    rw [top] at refused
    exact .inr ⟨_, refused, rfl⟩
  | cons value rest =>
    cases answered : read value with
    | ok answer => exact .inl ⟨value, rest, answer, rfl, answered, answered⟩
    | error fault =>
      obtain ⟨expected, found, rfl⟩ := kinds value fault answered
      exact .inr ⟨_, .kind expected found, answered⟩

theorem asString_error {value : Value} {fault : Fault} (failed : value.asString = .error fault) :
    ∃ expected found, fault = .typeMismatch expected found := by
  cases value <;> cases failed <;> exact ⟨_, _, rfl⟩

theorem asBool_error {value : Value} {fault : Fault} (failed : value.asBool = .error fault) :
    ∃ expected found, fault = .typeMismatch expected found := by
  cases value <;> cases failed <;> exact ⟨_, _, rfl⟩

theorem asNumber_error {value : Value} {fault : Fault} (failed : value.asNumber = .error fault) :
    ∃ expected found, fault = .typeMismatch expected found := by
  cases value <;> cases failed <;> exact ⟨_, _, rfl⟩

theorem eq_string_of_asString {value : Value} {text : String} (read : value.asString = .ok text) :
    value = .string text := by
  cases value <;> cases read
  rfl

theorem eq_bool_of_asBool {value : Value} {flag : Bool} (read : value.asBool = .ok flag) : value = .bool flag := by
  cases value <;> cases read
  rfl

theorem eq_number_of_asNumber {value : Value} {number : Number} (read : value.asNumber = .ok number) :
    value = .number number := by
  cases value <;> cases read
  rfl

theorem jump_executes [VariableStore σ] {machine : Machine} {store : σ} {stage : Stage} {node : Node}
    {instruction : Instruction} {label : String} (aimed : instruction.jumpTarget? = some label)
    (enough : instruction = .jumpIfFalse label → ∃ rest, machine.stack = .bool false :: rest) :
    machine.Executes store stage node instruction ⟨machine, store, [], node.jump label⟩ := by
  unfold Node.jump
  split
  next target found => exact .jumped aimed found enough
  next absent => exact .refused (.label aimed absent)

/-- Whatever an instruction does is on the list. -/
theorem execute_executes [VariableStore σ] (machine : Machine) (store : σ) (stage : Stage) (node : Node)
    (instruction : Instruction) :
    machine.Executes store stage node instruction (machine.execute store stage node instruction) := by
  cases instruction with
  | label name => exact .passed name
  | jumpTo target => exact jump_executes rfl (by simp)
  | jump =>
    simp only [execute]
    rcases peek_cases machine stage node .jump rfl Value.asString
      (fun _ _ => asString_error) with ⟨value, rest, label, top, read, found⟩ | ⟨fault, refused, found⟩
    · rw [found]
      rw [eq_string_of_asString read] at top
      simp only [Except.bind, Node.jump]
      split
      next target at_ => exact .jumpedDynamically top at_
      next absent => exact .refused (.dynamicLabel top absent)
    · rw [found]
      exact .refused refused
  | jumpIfFalse target =>
    simp only [execute]
    rcases peek_cases machine stage node (.jumpIfFalse target) rfl Value.asBool
      (fun _ _ => asBool_error) with ⟨value, rest, holds, top, read, found⟩ | ⟨fault, refused, found⟩
    · rw [found]
      rw [eq_bool_of_asBool read] at top
      simp only [Except.bind]
      cases holds with
      | true => exact .held target top
      | false => exact jump_executes rfl (fun _ => ⟨rest, top⟩)
    · rw [found]
      exact .refused refused
  | runLine index =>
    rcases string_cases stage.program index with ⟨text, found, read⟩ | ⟨absent, missing⟩
    · simp only [execute, read]
      exact .told (congrArg (Option.map Event.line) found)
    · simp only [execute, missing]
      exact .refused (.text rfl absent)
  | runCommand text => exact .told rfl
  | addOption text destination => exact .queued text destination
  | showOptions => exact showOptions_executes machine store stage node
  | pushString index =>
    rcases string_cases stage.program index with ⟨text, found, read⟩ | ⟨absent, missing⟩
    · simp only [execute, read]
      exact .pushed (congrArg (Option.map Value.string) found)
    · simp only [execute, missing]
      exact .refused (.text rfl absent)
  | pushNumber value => exact .pushed rfl
  | pushBool value => exact .pushed rfl
  | pushNull => exact .pushed rfl
  | pop =>
    simp only [execute, Scene.pop]
    split
    next empty =>
      have refused : machine.Refuses stage node .pop _ := .underflow rfl (by rw [empty]; decide)
      rw [empty] at refused
      exact .refused refused
    next value rest top => exact .popped top
  | callFunction name => exact callFunction_executes machine store stage node name
  | pushVariable name => exact .pushed rfl
  | storeVariable name =>
    simp only [execute, storeVariable]
    rcases peek_cases machine stage node (.storeVariable name) rfl Value.asNumber
      (fun _ _ => asNumber_error) with ⟨value, rest, number, top, read, found⟩ | ⟨fault, refused, found⟩
    · rw [found]
      rw [eq_number_of_asNumber read] at top
      exact .stored top
    · rw [found]
      exact .refused refused
  | stop => exact .stopped
  | runNode =>
    simp only [execute, runNode]
    rcases peek_cases machine stage node .runNode rfl Value.asString
      (fun _ _ => asString_error) with ⟨value, rest, name, top, read, found⟩ | ⟨fault, refused, found⟩
    · rw [found]
      rw [eq_string_of_asString read] at top
      cases known : stage.program.hasNode name with
      | true =>
        simp only [load, known, if_true]
        exact .entered top known
      | false =>
        simp only [load, known]
        exact .lost top known
    · rw [found]
      exact .refused refused

section Flow

variable [VariableStore σ] {machine : Machine} {store : σ} {stage : Stage} {node : Node} {instruction : Instruction}
  {response : Response σ Flow}

/-- Only an entered node moves the machine before its position is set. -/
theorem Executes.keeps_place (executed : machine.Executes store stage node instruction response)
    (stays : response.result ≠ .ok .entered) :
    response.machine.node = machine.node ∧ response.machine.position = machine.position := by
  cases executed <;> first | exact ⟨rfl, rfl⟩ | exact absurd rfl stays

/-- A machine is only ever jumped to a label of the node. -/
theorem Executes.jump_target {target : Nat} (executed : machine.Executes store stage node instruction response)
    (jumps : response.result = .ok (.jump target)) : ∃ label, node.labelIndex? label = some target := by
  cases executed with
  | jumped aimed found enough => cases jumps; exact ⟨_, found⟩
  | jumpedDynamically top found => cases jumps; exact ⟨_, found⟩
  | _ => cases jumps

/-- A node that is entered is one of the program, and is entered at its start with nothing on the stack. -/
theorem Executes.entered_scene (executed : machine.Executes store stage node instruction response)
    (enters : response.result = .ok .entered) :
    instruction = .runNode ∧ ∃ name, stage.program.hasNode name = true ∧
      response.machine.toScene = ⟨some name, 0, [], []⟩ := by
  cases executed with
  | entered top known => exact ⟨rfl, _, known, rfl⟩
  | _ => cases enters

theorem Executes.runNode_result {flow : Flow} (executed : machine.Executes store stage node .runNode response)
    (succeeds : response.result = .ok flow) : response.result = .ok .entered := by
  cases executed with
  | entered => rfl
  | refused | lost => cases succeeds
  | told tells => cases tells
  | pushed pushes => cases pushes
  | jumped aimed => cases aimed

/-- Only options that need an answer suspend the machine. -/
theorem Executes.suspended_response (executed : machine.Executes store stage node instruction response)
    (suspends : response.result = .ok .suspended) :
    instruction = .showOptions ∧ machine.pending ≠ [] ∧ (∀ destination, machine.pending ≠ [⟨none, destination⟩]) ∧
      ∃ texts, machine.pending.mapM (·.shownText stage.program) = .ok texts ∧
        response = ⟨{ machine with status := .waiting, ticket := machine.ticket + 1 }, store,
          [.options texts ⟨machine.ticket + 1, texts.length⟩], .ok .suspended⟩ := by
  cases executed with
  | prompted some open_ resolved => exact ⟨rfl, some, open_, _, resolved, rfl⟩
  | _ => cases suspends

/-- Only such options make the machine wait. -/
theorem Executes.free (executed : machine.Executes store stage node instruction response)
    (goes : response.result ≠ .ok .suspended) (free : machine.status ≠ .waiting) :
    response.machine.status ≠ .waiting := by
  cases executed with
  | prompted => exact absurd rfl goes
  | lost | stopped | nothingShown => exact fun waiting => by cases waiting
  | _ => exact free

/-- An instruction that succeeds as the table foretells has put its values in place of those it has taken. -/
theorem Executes.stack_eq_append (executed : machine.Executes store stage node instruction response) {effect : Effect}
    (known : instruction.effect? stage.signatures = some effect) {flow : Flow} (succeeds : response.result = .ok flow)
    (foretold : ¬instruction.Departs machine flow) :
    ∃ put : List Value, put.length = effect.pushes ∧
      response.machine.stack = put ++ machine.stack.drop effect.pops := by
  cases executed with
  | refused | callFailed | lost => cases succeeds
  | passed | queued | stopped =>
    cases known
    exact ⟨[], rfl, rfl⟩
  | held label top =>
    cases known
    exact ⟨[.bool true], rfl, by rw [top]; rfl⟩
  | told tells =>
    cases known.symm.trans (Instruction.effect?_of_told tells _)
    exact ⟨[], rfl, rfl⟩
  | @pushed _ value pushes =>
    cases known.symm.trans (Instruction.effect?_of_pushed pushes _)
    exact ⟨[value], rfl, rfl⟩
  | popped top =>
    cases known
    exact ⟨[], rfl, by rw [top]; rfl⟩
  | @called name function value found enough answered =>
    cases known.symm.trans (Instruction.effect?_callFunction found)
    exact ⟨if function.returnsValue then [value] else [], by cases function.returnsValue <;> rfl, rfl⟩
  | @stored name value rest top =>
    cases known
    exact ⟨[.number value], rfl, by rw [top]; rfl⟩
  | jumped aimed found enough =>
    cases instruction with
    | jumpTo =>
      cases known
      exact ⟨[], rfl, rfl⟩
    | jumpIfFalse =>
      cases known
      cases aimed
      obtain ⟨rest, top⟩ := enough rfl
      exact ⟨[.bool false], rfl, by rw [top]; rfl⟩
    | _ => cases aimed
  | @jumpedDynamically label target rest top found =>
    cases known
    exact ⟨[.string label], rfl, by rw [top]; rfl⟩
  | @taken destination alone =>
    cases known
    exact ⟨[.string destination], rfl, rfl⟩
  | entered => exact absurd (.inl rfl) foretold
  | nothingShown empty => exact absurd (.inr ⟨rfl, .inl empty⟩) foretold
  | prompted =>
    cases succeeds
    exact absurd (.inr ⟨rfl, .inr rfl⟩) foretold

theorem Executes.called_eq {name : String} (executed : machine.Executes store stage node (.callFunction name) response)
    {flow : Flow} (succeeds : response.result = .ok flow) :
    ∃ function value, stage.function? name = some function ∧
      function.body (machine.stack.take function.arity).reverse = .ok value ∧
      response.machine.stack = (if function.returnsValue then [value] else []) ++ machine.stack.drop function.arity := by
  cases executed with
  | refused | callFailed => cases succeeds
  | told tells => cases tells
  | pushed pushes => cases pushes
  | called found enough answered => exact ⟨_, _, found, answered, rfl⟩
  | jumped aimed => cases aimed

theorem Executes.effect_of_ok (executed : machine.Executes store stage node instruction response) {flow : Flow}
    (succeeds : response.result = .ok flow) : ∃ effect, instruction.effect? stage.signatures = some effect := by
  cases known : instruction.effect? stage.signatures with
  | some effect => exact ⟨effect, rfl⟩
  | none =>
    obtain ⟨name, rfl, absent⟩ := Instruction.effect?_eq_none.mp known
    obtain ⟨function, _, found, _⟩ := executed.called_eq succeeds
    simp [Stage.signatures, found] at absent

theorem Executes.height_eq (executed : machine.Executes store stage node instruction response) {effect : Effect}
    (known : instruction.effect? stage.signatures = some effect) {flow : Flow} (succeeds : response.result = .ok flow)
    (foretold : ¬instruction.Departs machine flow) :
    response.machine.stack.length = machine.stack.length - effect.pops + effect.pushes := by
  obtain ⟨put, length, stack⟩ := executed.stack_eq_append known succeeds foretold
  rw [stack, List.length_append, List.length_drop, length, Nat.add_comm]

/-- Whatever departs from the table leaves the node, or at least does not go on in it. -/
theorem Executes.flow_of_departs (executed : machine.Executes store stage node instruction response) {flow : Flow}
    (succeeds : response.result = .ok flow) (departs : instruction.Departs machine flow) :
    flow = .entered ∨ flow = .halted ∨ flow = .suspended := by
  rcases departs with rfl | ⟨rfl, empty | suspends⟩
  · cases succeeds.symm.trans (executed.runNode_result succeeds)
    exact .inl rfl
  · cases executed with
    | refused => cases succeeds
    | nothingShown => cases succeeds; exact .inr (.inl rfl)
    | taken alone => cases empty.symm.trans alone
    | prompted some => exact absurd empty some
    | told tells => cases tells
    | pushed pushes => cases pushes
    | jumped aimed => cases aimed
  · exact .inr (.inr suspends)

/-- An instruction that lets control fall through changes the height of the stack as the check has it. -/
theorem Executes.advance_height (executed : machine.Executes store stage node instruction response)
    (advances : response.result = .ok .advance) :
    ∃ effect, instruction.effect? stage.signatures = some effect ∧
      response.machine.stack.length = machine.stack.length - effect.pops + effect.pushes ∧
      ∀ position, position + 1 ∈ node.successors position instruction := by
  obtain ⟨effect, known⟩ := executed.effect_of_ok advances
  have foretold : ¬instruction.Departs machine .advance := fun departs => by
    simpa using executed.flow_of_departs advances departs
  refine ⟨effect, known, executed.height_eq known advances foretold, fun position => ?_⟩
  cases executed with
  | held => exact List.mem_cons_self
  | told tells => cases instruction <;> first | exact List.mem_singleton_self _ | cases tells
  | pushed pushes => cases instruction <;> first | exact List.mem_singleton_self _ | cases pushes
  | passed | queued | popped | called | stored | taken => exact List.mem_singleton_self _
  | _ => cases advances

theorem Executes.jump_height {target : Nat} (executed : machine.Executes store stage node instruction response)
    (jumps : response.result = .ok (.jump target)) (fixed : instruction ≠ .jump) :
    ∃ effect, instruction.effect? stage.signatures = some effect ∧
      response.machine.stack.length = machine.stack.length - effect.pops + effect.pushes ∧
      ∀ position, target ∈ node.successors position instruction := by
  obtain ⟨effect, known⟩ := executed.effect_of_ok jumps
  have foretold : ¬instruction.Departs machine (.jump target) := fun departs => by
    simpa using executed.flow_of_departs jumps departs
  refine ⟨effect, known, executed.height_eq known jumps foretold, fun position => ?_⟩
  cases executed with
  | jumped aimed found =>
    cases jumps
    cases instruction <;> cases aimed <;> simp [Node.successors, found]
  | jumpedDynamically => exact absurd rfl fixed
  | _ => cases jumps

theorem Executes.pending_eq (executed : machine.Executes store stage node instruction response) :
    response.machine.pending =
      if response.result.isOk then instruction.queueAfter machine.pending else machine.pending := by
  cases executed with
  | refused | callFailed | lost => rfl
  | told tells => cases instruction <;> first | rfl | cases tells
  | pushed pushes => cases instruction <;> first | rfl | cases pushes
  | jumped aimed => cases instruction <;> first | rfl | cases aimed
  | taken alone => simp [alone, Instruction.queueAfter, isTakenUnasked, Except.isOk, Except.toBool]
  | nothingShown empty => simp [empty, Instruction.queueAfter, isTakenUnasked, Except.isOk, Except.toBool]
  | prompted some open_ =>
    have asked : isTakenUnasked machine.pending = false := by
      rw [Bool.eq_false_iff, ne_eq, isTakenUnasked_iff]
      rintro ⟨destination, alone⟩
      exact open_ destination alone
    simp [asked, Instruction.queueAfter]
  | _ => rfl

theorem Executes.pending_cases (executed : machine.Executes store stage node instruction response) :
    response.machine.pending = machine.pending ∨ response.machine.pending = [] ∨
      ∃ text destination, instruction = .addOption text destination ∧
        response.machine.pending = machine.pending ++ [⟨text, destination⟩] := by
  rw [executed.pending_eq]
  split
  · cases instruction with
    | addOption text destination => exact .inr (.inr ⟨text, destination, rfl, rfl⟩)
    | runNode => exact .inr (.inl rfl)
    | showOptions =>
      simp only [Instruction.queueAfter]
      split
      · exact .inr (.inl rfl)
      · exact .inl rfl
    | _ => exact .inl rfl
  · exact .inl rfl

/-- An instruction that halts the machine or fails in any way but one leaves the stack alone. -/
theorem Executes.keeps_stack (executed : machine.Executes store stage node instruction response)
    (holds : response.result = .ok .halted ∨ ∃ fault, response.result = .error fault ∧
      ∀ name message, fault ≠ .functionFailed name message) : response.machine.stack = machine.stack := by
  rcases holds with halts | ⟨fault, fails, other⟩
  · cases executed <;> first | rfl | cases halts
  · cases executed with
    | callFailed => cases fails; exact absurd rfl (other _ _)
    | _ => first | rfl | cases fails

end Flow

def counted (machine : Machine) : Machine := { machine with status := .running, steps := machine.steps + 1 }

theorem counted_free (machine : Machine) : machine.counted.status ≠ .waiting := fun waiting => by cases waiting

/-- The ways in which a step may end, and the response to each. -/
inductive Steps [VariableStore σ] (machine : Machine) (store : σ) (stage : Stage) : Response σ Unit → Prop
  | waits (waiting : machine.status = .waiting) :
      Steps machine store stage ⟨machine, store, [], .error .stillWaiting⟩
  | nowhere (free : machine.status ≠ .waiting) (absent : machine.currentNode? stage.program = none) :
      Steps machine store stage ⟨{ machine with status := .stopped }, store, [], .error .noNodeSelected⟩
  | finishes {node : Node} (free : machine.status ≠ .waiting) (current : machine.currentNode? stage.program = some node)
      (beyond : node.instructions[machine.position]? = none) :
      Steps machine store stage ⟨{ machine with status := .stopped }, store, [.complete], .ok ()⟩
  | limited {node : Node} {instruction : Instruction} {fault : Fault} (free : machine.status ≠ .waiting)
      (current : machine.currentNode? stage.program = some node)
      (here : node.instructions[machine.position]? = some instruction)
      (limit : machine.counted.limitFault? stage instruction = some fault) :
      Steps machine store stage ⟨{ machine.counted with status := .stopped }, store, [], .error fault⟩
  | executes {node : Node} {instruction : Instruction} {response : Response σ Flow} (free : machine.status ≠ .waiting)
      (current : machine.currentNode? stage.program = some node)
      (here : node.instructions[machine.position]? = some instruction)
      (allowed : machine.counted.limitFault? stage instruction = none)
      (executed : machine.counted.Executes store stage node instruction response) :
      Steps machine store stage (response.settle stage.program)

theorem limitFault?_cases {machine : Machine} {stage : Stage} {instruction : Instruction} {fault : Fault}
    (limit : machine.limitFault? stage instruction = some fault) :
    (∃ bound, fault = .stepLimit bound) ∨ ∃ bound, fault = .stackLimit bound := by
  unfold limitFault? at limit
  cases bound : stage.limits.maxSteps with
  | none =>
    simp only [bound, Option.ite_none_right_eq_some, Option.some.injEq] at limit
    exact .inr ⟨_, limit.2.symm⟩
  | some most =>
    simp only [bound] at limit
    split at limit
    · exact .inl ⟨most, (Option.some.inj limit).symm⟩
    · simp only [Option.ite_none_right_eq_some, Option.some.injEq] at limit
      exact .inr ⟨_, limit.2.symm⟩

/-- The limits let an instruction through just if it is not counted too late and leaves the stack small enough. -/
theorem limitFault?_eq_none {machine : Machine} {stage : Stage} {instruction : Instruction} :
    machine.limitFault? stage instruction = none ↔
      (∀ bound, stage.limits.maxSteps = some bound → machine.steps ≤ bound) ∧
        machine.stack.length - ((instruction.effect? stage.signatures).getD ⟨0, 0⟩).pops +
          ((instruction.effect? stage.signatures).getD ⟨0, 0⟩).pushes ≤ stage.limits.maxStackSize := by
  unfold limitFault?
  cases stage.limits.maxSteps with
  | none => simp
  | some bound =>
    by_cases late : bound < machine.steps
    · simp [late, Nat.not_le_of_lt late]
    · simp [late, Nat.le_of_not_lt late]

section Equations

variable [VariableStore σ] {machine : Machine} {stage : Stage} {node : Node} {instruction : Instruction}

theorem step_waiting (waiting : machine.status = .waiting) (store : σ) (stage : Stage) :
    machine.step store stage = ⟨machine, store, [], .error .stillWaiting⟩ := by
  unfold step
  rw [if_pos waiting]

variable (free : machine.status ≠ .waiting)

include free

theorem step_nowhere (absent : machine.currentNode? stage.program = none) (store : σ) :
    machine.step store stage = ⟨{ machine with status := .stopped }, store, [], .error .noNodeSelected⟩ := by
  simp only [step, if_neg free, absent]

variable (current : machine.currentNode? stage.program = some node)

include current

theorem step_finished (beyond : node.instructions[machine.position]? = none) (store : σ) :
    machine.step store stage = ⟨{ machine with status := .stopped }, store, [.complete], .ok ()⟩ := by
  simp only [step, if_neg free, current, beyond]
  rfl

variable (here : node.instructions[machine.position]? = some instruction)

include here

theorem step_limited {fault : Fault} (limit : machine.counted.limitFault? stage instruction = some fault) (store : σ) :
    machine.step store stage = ⟨{ machine.counted with status := .stopped }, store, [], .error fault⟩ := by
  have fatal : fault.isFatal = true := by
    rcases limitFault?_cases limit with ⟨bound, rfl⟩ | ⟨bound, rfl⟩ <;> rfl
  unfold counted at limit ⊢
  simp only [step, if_neg free, current, here, limit, failed, if_pos fatal]

theorem step_executed (allowed : machine.counted.limitFault? stage instruction = none) (store : σ) :
    machine.step store stage = (machine.counted.execute store stage node instruction).settle stage.program := by
  unfold counted at allowed ⊢
  simp only [step, if_neg free, current, here, allowed]

end Equations

theorem step_steps [VariableStore σ] (machine : Machine) (store : σ) (stage : Stage) :
    machine.Steps store stage (machine.step store stage) := by
  by_cases free : machine.status = .waiting
  · rw [step_waiting free]
    exact .waits free
  · cases current : machine.currentNode? stage.program with
    | none =>
      rw [step_nowhere free current]
      exact .nowhere free current
    | some node =>
      cases here : node.instructions[machine.position]? with
      | none =>
        rw [step_finished free current here]
        exact .finishes free current here
      | some instruction =>
        cases allowed : machine.counted.limitFault? stage instruction with
        | some fault =>
          rw [step_limited free current here allowed]
          exact .limited free current here allowed
        | none =>
          rw [step_executed free current here allowed]
          exact .executes free current here allowed (execute_executes _ _ _ _ _)

end Machine

namespace Response

section Settle

variable {response : Response σ Flow} {program : Program}

theorem settle_advance (advances : response.result = .ok .advance) :
    response.settle program = response.arrive program (response.machine.position + 1) := by
  simp only [settle, advances]

theorem settle_jump {target : Nat} (jumps : response.result = .ok (.jump target)) :
    response.settle program = response.arrive program target := by
  simp only [settle, jumps]

theorem settle_entered (enters : response.result = .ok .entered) :
    response.settle program = response.arrive program response.machine.position := by
  simp only [settle, enters]

theorem settle_suspended (suspends : response.result = .ok .suspended) :
    response.settle program = ⟨{ response.machine with position := response.machine.position + 1 }, response.store,
      response.events, .ok ()⟩ := by
  simp only [settle, suspends]

theorem settle_halted (halts : response.result = .ok .halted) :
    response.settle program = ⟨response.machine, response.store, response.events, .ok ()⟩ := by
  simp only [settle, halts]

theorem settle_error {fault : Fault} (fails : response.result = .error fault) :
    response.settle program =
      ⟨response.machine.failed fault, response.store, response.events, .error fault⟩ := by
  simp only [settle, fails]

end Settle

/-- Arriving changes the position, and stops the machine if no instruction is there. -/
theorem arrive_eq (response : Response σ Flow) (program : Program) (position : Nat) :
    response.arrive program position =
      if ({ response.machine with position } : Machine).atEnd program then
        ⟨{ response.machine with position, status := .stopped }, response.store, response.events ++ [.complete], .ok ()⟩
      else ⟨{ response.machine with position }, response.store, response.events, .ok ()⟩ := rfl

theorem arrive_scene (response : Response σ Flow) (program : Program) (position : Nat) :
    (response.arrive program position).machine.toScene = { response.machine.toScene with position } := by
  rw [arrive_eq]
  split <;> rfl

theorem arrive_free {response : Response σ Flow} (free : response.machine.status ≠ .waiting) (program : Program)
    (position : Nat) : (response.arrive program position).machine.status ≠ .waiting := by
  rw [arrive_eq]
  split
  · exact fun waiting => by cases waiting
  · exact free

theorem arrive_result (response : Response σ Flow) (program : Program) (position : Nat) :
    (response.arrive program position).result = .ok () := by
  rw [arrive_eq]
  split <;> rfl

end Response

theorem Machine.failed_free {machine : Machine} (free : machine.status ≠ .waiting) (fault : Fault) :
    (machine.failed fault).status ≠ .waiting := by
  unfold Machine.failed
  split
  · exact fun waiting => by cases waiting
  · exact free

theorem Machine.failed_scene (machine : Machine) (fault : Fault) :
    (machine.failed fault).toScene = machine.toScene := by
  unfold Machine.failed
  split <;> rfl

/-- Settling sets the position, may stop the machine, and tells nothing more than a completion. -/
theorem Response.settle_eq (response : Response σ Flow) (program : Program) :
    ∃ position status told, response.settle program = ⟨{ response.machine with position, status }, response.store,
        response.events ++ told, response.result.map fun _ => ()⟩ ∧
      (status = response.machine.status ∨ status = .stopped) ∧ (told = [] ∨ told = [.complete]) := by
  have arrives : ∀ target flow, response.result = .ok flow → ∃ position status told, response.arrive program target =
        ⟨{ response.machine with position, status }, response.store, response.events ++ told,
          response.result.map fun _ => ()⟩ ∧
      (status = response.machine.status ∨ status = .stopped) ∧ (told = [] ∨ told = [.complete]) := by
    intro target flow result
    rw [arrive_eq, result]
    split
    · exact ⟨target, .stopped, [.complete], rfl, .inr rfl, .inr rfl⟩
    · exact ⟨target, response.machine.status, [], by rw [List.append_nil]; rfl, .inl rfl, .inl rfl⟩
  rcases result : response.result with fault | flow
  · rw [settle_error result, Machine.failed]
    split
    · exact ⟨_, .stopped, [], by rw [List.append_nil]; rfl, .inr rfl, .inl rfl⟩
    · exact ⟨_, response.machine.status, [], by rw [List.append_nil]; rfl, .inl rfl, .inl rfl⟩
  · rw [← result]
    cases flow with
    | advance => rw [settle_advance result]; exact arrives _ _ result
    | jump target => rw [settle_jump result]; exact arrives _ _ result
    | entered => rw [settle_entered result]; exact arrives _ _ result
    | suspended =>
      rw [settle_suspended result, result]
      exact ⟨_, response.machine.status, [], by rw [List.append_nil]; rfl, .inl rfl, .inl rfl⟩
    | halted =>
      rw [settle_halted result, result]
      exact ⟨_, response.machine.status, [], by rw [List.append_nil]; rfl, .inl rfl, .inl rfl⟩

theorem Response.settle_pending (response : Response σ Flow) (program : Program) :
    (response.settle program).machine.pending = response.machine.pending := by
  obtain ⟨position, status, told, settled, _⟩ := response.settle_eq program
  rw [settled]

theorem Response.settle_isOk (response : Response σ Flow) (program : Program) :
    (response.settle program).result.isOk = response.result.isOk := by
  obtain ⟨position, status, told, settled, _⟩ := response.settle_eq program
  rw [settled]
  cases response.result <;> rfl

namespace Machine

/-- Every failure of a step has its reason. -/
theorem step_error [VariableStore σ] {machine : Machine} {store : σ} {stage : Stage} {fault : Fault}
    (failed : (machine.step store stage).result = .error fault) :
    fault = .stillWaiting ∨ fault = .noNodeSelected ∨ (∃ bound, fault = .stepLimit bound) ∨
      (∃ bound, fault = .stackLimit bound) ∨ (∃ name message, fault = .functionFailed name message) ∨
      (∃ name, fault = .unknownNode name) ∨
      ∃ node instruction, machine.status ≠ .waiting ∧ machine.currentNode? stage.program = some node ∧
        node.instructions[machine.position]? = some instruction ∧
        machine.counted.Refuses stage node instruction fault := by
  have steps := machine.step_steps store stage
  generalize machine.step store stage = response at steps failed
  cases steps with
  | waits => cases failed; simp
  | nowhere => cases failed; simp
  | finishes => cases failed
  | limited free current here limit =>
    cases failed
    rcases limitFault?_cases limit with ⟨bound, rfl⟩ | ⟨bound, rfl⟩ <;> simp
  | @executes node instruction response free current here allowed executed =>
    rcases result : response.result with other | flow
    · rw [Response.settle_error result] at failed
      cases failed
      cases executed with
      | refused reason => cases result; simp_all
      | callFailed => cases result; simp
      | lost => cases result; simp
      | _ => cases result
    · cases flow with
      | advance => rw [Response.settle_advance result, Response.arrive_result] at failed; cases failed
      | jump => rw [Response.settle_jump result, Response.arrive_result] at failed; cases failed
      | entered => rw [Response.settle_entered result, Response.arrive_result] at failed; cases failed
      | suspended => rw [Response.settle_suspended result] at failed; cases failed
      | halted => rw [Response.settle_halted result] at failed; cases failed

section Calls

variable {machine : Machine} {program : Program} {name : String}

theorem selectNode_known (known : program.hasNode name = true) :
    machine.selectNode program name = ({ machine with
      node := some name, position := 0, stack := [], pending := [], steps := 0
      status := if machine.status = .waiting then .stopped else machine.status }, .ok ()) := by
  unfold selectNode load abandonPrompt
  rw [if_pos known]
  split <;> rfl

theorem selectNode_unknown (unknown : program.hasNode name = false) :
    machine.selectNode program name = ({ machine with
      pending := if machine.status = .waiting then [] else machine.pending
      steps := 0, status := .stopped }, .error (.unknownNode name)) := by
  unfold selectNode load abandonPrompt
  rw [unknown]
  by_cases waiting : machine.status = .waiting
  · simp only [if_pos waiting]
    rfl
  · simp only [if_neg waiting]
    rfl

/-- No machine waits once its host has selected a node or tried to. -/
theorem selectNode_free (machine : Machine) (program : Program) (name : String) :
    (machine.selectNode program name).1.status ≠ .waiting := by
  cases known : program.hasNode name with
  | true =>
    rw [selectNode_known known]
    by_cases waiting : machine.status = .waiting <;> simp [waiting]
  | false => simp [selectNode_unknown known]

theorem selectNode_ticket (machine : Machine) (program : Program) (name : String) :
    (machine.selectNode program name).1.ticket = machine.ticket := by
  cases known : program.hasNode name with
  | true => rw [selectNode_known known]
  | false => rw [selectNode_unknown known]

/-- A choice is accepted at its own prompt only, and pushes the destination of the option chosen. -/
theorem selectOption_ok {handle : Handle} {index : Nat} {chosen : Machine}
    (accepted : machine.selectOption handle index = .ok chosen) :
    machine.status = .waiting ∧ handle.ticket = machine.ticket ∧ ∃ choice, machine.pending[index]? = some choice ∧
      chosen = { machine with
        stack := .string choice.destination :: machine.stack, pending := [], status := .running } := by
  unfold selectOption at accepted
  split at accepted
  · cases accepted
  next current =>
    obtain ⟨waiting, same⟩ := not_or.mp current
    split at accepted
    · cases accepted
    next choice found =>
      cases accepted
      exact ⟨Decidable.not_not.mp waiting, Decidable.not_not.mp same, choice, found, rfl⟩

theorem selectOption_chosen {handle : Handle} {index : Nat} {choice : Choice} (waiting : machine.status = .waiting)
    (current : handle.ticket = machine.ticket) (found : machine.pending[index]? = some choice) :
    machine.selectOption handle index = .ok { machine with
      stack := .string choice.destination :: machine.stack, pending := [], status := .running } := by
  simp only [selectOption, waiting, current, found, ne_eq, not_true_eq_false, or_self, if_false]
  rfl

theorem selectOption_foreign {handle : Handle} (foreign : machine.status ≠ .waiting ∨ handle.ticket ≠ machine.ticket)
    (index : Nat) : machine.selectOption handle index = .error ⟨handle, .foreignSelection⟩ :=
  if_pos foreign

theorem selectOption_outOfRange {handle : Handle} {index : Nat} (waiting : machine.status = .waiting)
    (current : handle.ticket = machine.ticket) (beyond : machine.pending.length ≤ index) :
    machine.selectOption handle index = .error ⟨handle, .optionOutOfRange index machine.pending.length⟩ := by
  have absent : machine.pending[index]? = none := List.getElem?_eq_none beyond
  simp only [selectOption, waiting, current, absent, ne_eq, not_true_eq_false, or_self, if_false]

/-- A choice that is refused gives its own handle back. -/
theorem selectOption_error {handle : Handle} {index : Nat} {rejection : Rejection}
    (refused : machine.selectOption handle index = .error rejection) :
    rejection = ⟨handle, .foreignSelection⟩ ∨
      rejection = ⟨handle, .optionOutOfRange index machine.pending.length⟩ := by
  unfold selectOption at refused
  split at refused
  · exact .inl (Except.error.inj refused).symm
  · split at refused
    · exact .inr (Except.error.inj refused).symm
    · cases refused

theorem answer_chosen [VariableStore σ] {handle : Handle} {index : Nat} {chosen : Machine}
    (accepted : machine.selectOption handle index = .ok chosen) (store : σ) (stage : Stage) (fuel : Nat) :
    machine.answer store stage fuel (.selectOption handle index) = ⟨chosen, store, [], .ok .done⟩ := by
  simp only [answer, accepted]

theorem answer_rejected [VariableStore σ] {handle : Handle} {index : Nat} {rejection : Rejection}
    (refused : machine.selectOption handle index = .error rejection) (store : σ) (stage : Stage) (fuel : Nat) :
    machine.answer store stage fuel (.selectOption handle index) = ⟨machine, store, [], .error rejection.fault⟩ := by
  simp only [answer, refused]

/-- A call fails because a step or a run does, or over a mistake of the host. -/
theorem answer_error [VariableStore σ] {store : σ} {stage : Stage} {fuel : Nat} {call : HostCall} {fault : Fault}
    (failed : (machine.answer store stage fuel call).result = .error fault) :
    (machine.step store stage).result = .error fault ∨ (machine.run store stage fuel).result = .error fault ∨
      fault.isFatal = false := by
  cases call with
  | selectNode name =>
    cases known : stage.program.hasNode name with
    | true =>
      simp only [answer, selectNode_known known] at failed
      cases failed
    | false =>
      simp only [answer, selectNode_unknown known] at failed
      cases failed
      exact .inr (.inr rfl)
  | step =>
    cases result : (machine.step store stage).result with
    | ok => simp [answer, result, Except.map] at failed
    | error other =>
      simp only [answer, result, Except.map, Except.error.injEq] at failed
      exact .inl (congrArg Except.error failed)
  | run =>
    cases result : (machine.run store stage fuel).result with
    | ok => simp [answer, result, Except.map] at failed
    | error other =>
      simp only [answer, result, Except.map, Except.error.injEq] at failed
      exact .inr (.inl (congrArg Except.error failed))
  | selectOption handle index =>
    cases selected : machine.selectOption handle index with
    | ok chosen =>
      rw [answer_chosen selected] at failed
      cases failed
    | error rejection =>
      rw [answer_rejected selected] at failed
      cases failed
      rcases selectOption_error selected with rfl | rfl <;> exact .inr (.inr rfl)
  | stop => cases failed

end Calls

theorem currentNode?_some {machine : Machine} {program : Program} {node : Node}
    (current : machine.currentNode? program = some node) :
    ∃ name, machine.node = some name ∧ program.node? name = some node :=
  Option.bind_eq_some_iff.mp current

end Machine

theorem Node.labelIndex?_lt {node : Node} {label : String} {target : Nat}
    (found : node.labelIndex? label = some target) : target < node.instructions.length := by
  obtain ⟨inside, _⟩ := List.findIdx?_eq_some_iff_getElem.mp found
  exact inside


end Dialogue
