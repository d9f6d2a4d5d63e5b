import Dialogue.Machine.Host

/-!
A host with several machines on one stage and one store. It keeps the handles of all prompts in one list, in the
order of their issue, and may present any of them to any machine until it is spent.
-/

namespace Dialogue

inductive StorageCall where
  | read (name : String)
  | write (name : String) (value : Number)
  | contains (name : String)
  | clear
deriving DecidableEq

inductive StorageAnswer where
  | done
  | number (value : Number)
  | flag (value : Bool)
deriving DecidableEq

def Storage.answer (storage : Storage) : StorageCall → Storage × StorageAnswer
  | .read name => (storage, .number (storage.read name))
  | .write name value => (storage.write name value, .done)
  | .contains name => (storage, .flag (storage.contains name))
  | .clear => (storage.clear, .done)

structure Session where
  machines : List Machine
  store : Storage
  /-- A handle that was accepted is gone from its place. -/
  issued : List (Option Handle)

inductive SessionResult where
  | answered (outcome : Outcome)
  | failed (fault : Fault)
  /-- The choice was refused, and its handle is back in its place. -/
  | rejected (fault : Fault)
  /-- There is no such handle, or it is spent. -/
  | noHandle
deriving DecidableEq

/-- What the host sees of a call: its result, the events it brought, and the machine afterwards. -/
structure View where
  result : SessionResult
  events : List Event
  machine : Machine

inductive MachineRequest where
  | call (call : HostCall)
  /-- Chooses with the handle at that place, or with the latest one. -/
  | choose (place : Option Nat) (index : Nat)
  /-- Steps until a step fails or leaves the machine not running, at most so many times. -/
  | trace (steps : Nat)
  /-- Runs to a prompt and answers it by the next choice, modulo the number of options, as often as there is one. -/
  | play (choices : List Nat)

namespace Session

/-- So many new machines, none of which has a node yet. -/
def start (machines : Nat) (store : Storage) : Session := ⟨List.replicate machines .initial, store, []⟩

def handlesOf (events : List Event) : List (Option Handle) :=
  events.filterMap fun
    | .options _ handle => some (some handle)
    | _ => none

def call (session : Session) (stage : Stage) (fuel : Nat) (place : Nat) (machine : Machine) (call : HostCall) :
    Session × View :=
  let response := machine.answer session.store stage fuel call
  let result := match response.result with
    | .ok outcome => SessionResult.answered outcome
    | .error fault => .failed fault
  ({ machines := session.machines.set place response.machine
     store := response.store
     issued := session.issued ++ handlesOf response.events },
    ⟨result, response.events, response.machine⟩)

def choose (session : Session) (place : Nat) (machine : Machine) (handlePlace : Option Nat) (index : Handle → Nat) :
    Session × View :=
  let handlePlace := handlePlace.getD (session.issued.length - 1)
  match session.issued[handlePlace]?.join with
  | none => (session, ⟨.noHandle, [], machine⟩)
  | some handle =>
    match machine.selectOption handle (index handle) with
    | .error rejection =>
      ({ session with issued := session.issued.set handlePlace (some rejection.handle) },
        ⟨.rejected rejection.fault, [], machine⟩)
    | .ok chosen =>
      ({ session with
          machines := session.machines.set place chosen
          issued := session.issued.set handlePlace none },
        ⟨.answered .done, [], chosen⟩)

def trace (session : Session) (stage : Stage) (place : Nat) (machine : Machine) : Nat → Session × List View
  | 0 => (session, [])
  | steps + 1 =>
    let (next, view) := session.call stage 0 place machine .step
    match view.result with
    | .answered _ =>
      if view.machine.status = .running then
        let (last, views) := next.trace stage place view.machine steps
        (last, view :: views)
      else (next, [view])
    | _ => (next, [view])

def play (session : Session) (stage : Stage) (fuel : Nat) (place : Nat) (machine : Machine) :
    List Nat → Session × List View
  | [] => (session, [])
  | choice :: choices =>
    let (shown, prompt) := session.call stage fuel place machine .run
    match prompt.result with
    | .answered (.reached .waiting) =>
      let (answered, view) := shown.choose place prompt.machine none fun handle => choice % handle.optionCount
      let (last, views) := answered.play stage fuel place view.machine choices
      (last, prompt :: view :: views)
    | _ => (shown, [prompt])

/-- Serves a request to the machine at that place, if there is one. -/
def serve (session : Session) (stage : Stage) (fuel : Nat) (place : Nat) (request : MachineRequest) :
    Option (Session × List View) :=
  session.machines[place]?.map fun machine =>
    match request with
    | .call call =>
      let (next, view) := session.call stage fuel place machine call
      (next, [view])
    | .choose handlePlace index =>
      let (next, view) := session.choose place machine handlePlace fun _ => index
      (next, [view])
    | .trace steps => session.trace stage place machine steps
    | .play choices => session.play stage fuel place machine choices

end Session

end Dialogue
