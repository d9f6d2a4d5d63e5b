import Dialogue.Machine.Basic

/-!
Execution: one instruction, one step with its limits and its completion, and runs of steps. A step that fails
leaves the machine where it was, so that the host can see the instruction that failed.
-/

namespace Dialogue

/-- Where control goes after an instruction. -/
inductive Flow where
  | advance
  | jump (target : Nat)
  /-- Another node was entered, at its start. -/
  | entered
  /-- Options are shown; the machine waits behind the instruction. -/
  | suspended
  /-- The node is complete; the machine stays on the instruction. -/
  | halted
deriving DecidableEq

def Node.jump (node : Node) (label : String) : Except Fault Flow :=
  match node.labelIndex? label with
  | some target => .ok (.jump target)
  | none => .error (.unknownLabel node.name label)

def Choice.shownText (choice : Choice) (program : Program) : Except Fault String :=
  match choice.text with
  | some index => program.string index
  | none => .ok choice.destination

variable {σ : Type}

namespace Machine

def proceed (machine : Machine) (store : σ) (outcome : Except Fault Scene) : Response σ Flow :=
  match outcome with
  | .ok scene => ⟨{ machine with toScene := scene }, store, [], .ok .advance⟩
  | .error fault => ⟨machine, store, [], .error fault⟩

def tell (machine : Machine) (store : σ) (event : Except Fault Event) : Response σ Flow :=
  match event with
  | .ok event => ⟨machine, store, [event], .ok .advance⟩
  | .error fault => ⟨machine, store, [], .error fault⟩

/-- The node is complete, which stops the machine. -/
def complete {α : Type} (machine : Machine) (store : σ) (result : α) : Response σ α :=
  ⟨{ machine with status := .stopped }, store, [.complete], .ok result⟩

/-- Shows the queued options. None at all completes the node, and a single one without a text is taken unasked. -/
def showOptions (machine : Machine) (store : σ) (program : Program) : Response σ Flow :=
  match machine.pending with
  | [] => machine.complete store .halted
  | [⟨none, destination⟩] =>
    machine.proceed store (.ok ((machine.toScene.clearPending).push (.string destination)))
  | options =>
    match options.mapM (·.shownText program) with
    | .error fault => ⟨machine, store, [], .error fault⟩
    | .ok texts =>
      let ticket := machine.ticket + 1
      ⟨{ machine with status := .waiting, ticket }, store, [.options texts ⟨ticket, texts.length⟩], .ok .suspended⟩

/-- Calls a function with the topmost values. If it fails they are gone all the same. -/
def callFunction (machine : Machine) (store : σ) (stage : Stage) (name : String) : Response σ Flow :=
  match stage.function? name with
  | none => ⟨machine, store, [], .error (.unknownFunction name)⟩
  | some function =>
    match machine.toScene.popMany function.arity with
    | .error fault => ⟨machine, store, [], .error fault⟩
    | .ok (arguments, scene) =>
      match function.body arguments with
      | .error message => ⟨{ machine with toScene := scene }, store, [], .error (.functionFailed name message)⟩
      | .ok value => machine.proceed store (.ok (if function.returnsValue then scene.push value else scene))

/-- Enters the node that the top of the stack names. -/
def runNode (machine : Machine) (store : σ) (program : Program) : Response σ Flow :=
  match machine.toScene.peek.bind Value.asString with
  | .error fault => ⟨machine, store, [], .error fault⟩
  | .ok name =>
    let (loaded, result) := machine.load program name
    ⟨loaded, store, [], result.map fun _ => .entered⟩

def storeVariable [VariableStore σ] (machine : Machine) (store : σ) (name : String) : Response σ Flow :=
  match machine.toScene.peek.bind Value.asNumber with
  | .error fault => ⟨machine, store, [], .error fault⟩
  | .ok value => ⟨machine, VariableStore.write store name value, [], .ok .advance⟩

def execute [VariableStore σ] (machine : Machine) (store : σ) (stage : Stage) (node : Node)
    (instruction : Instruction) : Response σ Flow :=
  let scene := machine.toScene
  match instruction with
  | .label _ => machine.proceed store (.ok scene)
  | .jumpTo target => ⟨machine, store, [], node.jump target⟩
  | .jump => ⟨machine, store, [], (scene.peek.bind Value.asString).bind node.jump⟩
  | .jumpIfFalse target =>
    ⟨machine, store, [], (scene.peek.bind Value.asBool).bind fun holds =>
      if holds then .ok .advance else node.jump target⟩
  | .runLine index => machine.tell store ((stage.program.string index).map .line)
  | .runCommand text => machine.tell store (.ok (.command text))
  | .addOption text destination => machine.proceed store (.ok (scene.queue ⟨text, destination⟩))
  | .showOptions => machine.showOptions store stage.program
  | .pushString index => machine.proceed store ((stage.program.string index).map fun text => scene.push (.string text))
  | .pushNumber value => machine.proceed store (.ok (scene.push (.number value)))
  | .pushBool value => machine.proceed store (.ok (scene.push (.bool value)))
  | .pushNull => machine.proceed store (.ok (scene.push .null))
  | .pop => machine.proceed store (scene.pop.map Prod.snd)
  | .callFunction name => machine.callFunction store stage name
  | .pushVariable name => machine.proceed store (.ok (scene.push (.number (VariableStore.read store name))))
  | .storeVariable name => machine.storeVariable store name
  | .stop => machine.complete store .halted
  | .runNode => machine.runNode store stage.program

/-- The limit that forbids the next instruction, whose count is already in. The stack is measured as the
instruction would leave it; one whose effect is not known leaves it alone. -/
def limitFault? (machine : Machine) (stage : Stage) (instruction : Instruction) : Option Fault :=
  let effect := (instruction.effect? stage.signatures).getD ⟨0, 0⟩
  let height := machine.stack.length - effect.pops + effect.pushes
  let tooLarge := if stage.limits.maxStackSize < height then some (.stackLimit stage.limits.maxStackSize) else none
  match stage.limits.maxSteps with
  | some bound => if bound < machine.steps then some (.stepLimit bound) else tooLarge
  | none => tooLarge

/-- A fatal fault stops the machine. -/
def failed (machine : Machine) (fault : Fault) : Machine :=
  if fault.isFatal then { machine with status := .stopped } else machine

/-- Whether no instruction of the current node is left. -/
def atEnd (machine : Machine) (program : Program) : Bool :=
  match machine.currentNode? program with
  | some node => node.instructions.length ≤ machine.position
  | none => true

end Machine

namespace Response

/-- Arrives at the next instruction, or completes the node if there is none. -/
def arrive (response : Response σ Flow) (program : Program) (position : Nat) : Response σ Unit :=
  let machine := { response.machine with position }
  if machine.atEnd program then
    ⟨{ machine with status := .stopped }, response.store, response.events ++ [.complete], .ok ()⟩
  else ⟨machine, response.store, response.events, .ok ()⟩

def settle (response : Response σ Flow) (program : Program) : Response σ Unit :=
  let machine := response.machine
  match response.result with
  | .ok .advance => response.arrive program (machine.position + 1)
  | .ok (.jump target) => response.arrive program target
  | .ok .entered => response.arrive program machine.position
  | .ok .suspended => ⟨{ machine with position := machine.position + 1 }, response.store, response.events, .ok ()⟩
  | .ok .halted => ⟨machine, response.store, response.events, .ok ()⟩
  | .error fault => ⟨machine.failed fault, response.store, response.events, .error fault⟩

def after {α : Type} (earlier : List Event) (response : Response σ α) : Response σ α :=
  { response with events := earlier ++ response.events }

end Response

namespace Machine

variable [VariableStore σ]

/-- Executes one instruction. A machine that waits refuses, and one whose node is at its end completes it. -/
def step (machine : Machine) (store : σ) (stage : Stage) : Response σ Unit :=
  if machine.status = .waiting then ⟨machine, store, [], .error .stillWaiting⟩
  else
    match machine.currentNode? stage.program with
    | none => ⟨{ machine with status := .stopped }, store, [], .error .noNodeSelected⟩
    | some node =>
      match node.instructions[machine.position]? with
      | none => machine.complete store ()
      | some instruction =>
        let counted := { machine with status := .running, steps := machine.steps + 1 }
        match counted.limitFault? stage instruction with
        | some fault => ⟨counted.failed fault, store, [], .error fault⟩
        | none => (counted.execute store stage node instruction).settle stage.program

/-- Steps until the machine stops or waits, or a step fails, and answers the status reached. If all steps of `fuel`
are made before that, the answer is `none`, and the run can go on from the machine as it is. What was told before
stands in `told`, the latest first. -/
def runFrom (told : List Event) (machine : Machine) (store : σ) (stage : Stage) : Nat → Response σ (Option Status)
  | 0 => ⟨machine, store, told.reverse, .ok none⟩
  | fuel + 1 =>
    let stepped := machine.step store stage
    let told := stepped.events.reverse ++ told
    match stepped.result with
    | .error fault => ⟨stepped.machine, stepped.store, told.reverse, .error fault⟩
    | .ok () =>
      if stepped.machine.status ≠ .running then
        ⟨stepped.machine, stepped.store, told.reverse, .ok (some stepped.machine.status)⟩
      else runFrom told stepped.machine stepped.store stage fuel

def run (machine : Machine) (store : σ) (stage : Stage) (fuel : Nat) : Response σ (Option Status) :=
  runFrom [] machine store stage fuel

theorem runFrom_eq_after (told : List Event) (machine : Machine) (store : σ) (stage : Stage) (fuel : Nat) :
    runFrom told machine store stage fuel = (machine.run store stage fuel).after told.reverse := by
  unfold run
  induction fuel generalizing told machine store with
  | zero => simp [runFrom, Response.after]
  | succ fuel ih =>
    simp only [runFrom]
    split
    · simp [Response.after]
    · split
      · simp [Response.after]
      · rw [ih, ih (_ ++ [])]
        simp [Response.after]

theorem run_zero (machine : Machine) (store : σ) (stage : Stage) :
    machine.run store stage 0 = ⟨machine, store, [], .ok none⟩ := rfl

/-- A run is a first step and, as long as the machine is running, the run from there. -/
theorem run_succ (machine : Machine) (store : σ) (stage : Stage) (fuel : Nat) :
    machine.run store stage (fuel + 1) =
      match (machine.step store stage).result with
      | .error fault => { machine.step store stage with result := .error fault }
      | .ok () =>
        if (machine.step store stage).machine.status ≠ .running then
          { machine.step store stage with result := .ok (some (machine.step store stage).machine.status) }
        else
          ((machine.step store stage).machine.run (machine.step store stage).store stage fuel).after
            (machine.step store stage).events := by
  simp only [run, runFrom, List.append_nil, List.reverse_reverse]
  split
  · rfl
  · split
    · rfl
    · rw [runFrom_eq_after]
      simp [run]

end Machine

end Dialogue
