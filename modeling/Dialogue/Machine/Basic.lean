import Dialogue.Check
import Dialogue.Scene
import Dialogue.Storage

/-!
The machine that plays a program for a host. It holds its scene, a status and two counters; what it plays on, the
stage, never changes, and variables live in a store that the host may share between machines.
-/

namespace Dialogue

inductive Status where
  | stopped
  | running
  /-- Options are shown and the host has not chosen yet. -/
  | waiting
deriving DecidableEq

/-- The ticket under which options were shown; the host hands it back with its choice. -/
structure Handle where
  ticket : Nat
  optionCount : Nat
deriving DecidableEq

/-- A choice that was refused. The host gets its handle back and may try again. -/
structure Rejection where
  handle : Handle
  fault : Fault
deriving DecidableEq

def Rejection.message (rejection : Rejection) : String := rejection.fault.message

/-- What a machine tells its host while it plays. -/
inductive Event where
  | line (text : String)
  | command (text : String)
  | options (texts : List String) (handle : Handle)
  | complete
deriving DecidableEq

/-- Bounds on the instructions executed since the host last selected a node, and on the stack. -/
structure Limits where
  maxSteps : Option Nat
  maxStackSize : Nat
deriving DecidableEq

def Limits.standard : Limits := ⟨none, 10000⟩

structure Stage where
  program : Program
  function? : String → Option Function
  limits : Limits

def Stage.signatures (stage : Stage) : Signatures := fun name => (stage.function? name).map Function.toSignature

structure Machine extends Scene where
  status : Status
  /-- Instructions executed, or refused by a limit, since the host last selected a node. -/
  steps : Nat
  ticket : Nat
deriving DecidableEq

/-- What a machine answers to its host: itself, the store, what it told meanwhile and how it ended. -/
structure Response (σ α : Type) where
  machine : Machine
  store : σ
  events : List Event
  result : Except Fault α

namespace Machine

def initial : Machine := { Scene.initial with status := .stopped, steps := 0, ticket := 0 }

def currentNode? (machine : Machine) (program : Program) : Option Node := machine.node.bind program.node?

/-- Goes to the start of a node with nothing on the stack and nothing queued. A name that is not known stops the
machine where it is. -/
def load (machine : Machine) (program : Program) (name : String) : Machine × Except Fault Unit :=
  if program.hasNode name then ({ machine with toScene := (machine.toScene.enter name).clearPending }, .ok ())
  else ({ machine with status := .stopped }, .error (.unknownNode name))

/-- Leaves a prompt unanswered and drops its options; otherwise nothing happens. -/
def abandonPrompt (machine : Machine) : Machine :=
  if machine.status = .waiting then { machine with toScene := machine.toScene.clearPending, status := .stopped }
  else machine

/-- The host selects a node, which starts a new count of steps. A prompt in progress is abandoned either way. -/
def selectNode (machine : Machine) (program : Program) (name : String) : Machine × Except Fault Unit :=
  { machine.abandonPrompt with steps := 0 }.load program name

/-- The host stops the machine, which drops queued options and reports no completion. -/
def stop (machine : Machine) : Machine :=
  { machine with toScene := machine.toScene.clearPending, status := .stopped }

/-- The host chooses one of the options shown. A choice that is refused changes nothing. -/
def selectOption (machine : Machine) (handle : Handle) (index : Nat) : Except Rejection Machine :=
  if machine.status ≠ .waiting ∨ handle.ticket ≠ machine.ticket then .error ⟨handle, .foreignSelection⟩
  else
    match machine.pending[index]? with
    | none => .error ⟨handle, .optionOutOfRange index machine.pending.length⟩
    | some choice => .ok { machine with
        toScene := (machine.toScene.clearPending).push (.string choice.destination), status := .running }

end Machine

end Dialogue
