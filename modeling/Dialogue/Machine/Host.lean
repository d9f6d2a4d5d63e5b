import Dialogue.Machine.Step

/-!
What a host may ask of a machine, as one type, so that whole conversations can be spoken of as lists of calls.
-/

namespace Dialogue

inductive HostCall where
  | selectNode (name : String)
  | step
  | run
  | selectOption (handle : Handle) (index : Nat)
  | stop
deriving DecidableEq

inductive Outcome where
  | done
  | reached (status : Status)
  | unfinished
deriving DecidableEq

variable {σ : Type} [VariableStore σ]

/-- Answers one call; a run makes at most `fuel` steps. -/
def Machine.answer (machine : Machine) (store : σ) (stage : Stage) (fuel : Nat) : HostCall → Response σ Outcome
  | .selectNode name =>
    let (selected, result) := machine.selectNode stage.program name
    ⟨selected, store, [], result.map fun _ => .done⟩
  | .step =>
    let stepped := machine.step store stage
    { stepped with result := stepped.result.map fun _ => .done }
  | .run =>
    let ran := machine.run store stage fuel
    { ran with result := ran.result.map fun
        | some status => .reached status
        | none => .unfinished }
  | .selectOption handle index =>
    match machine.selectOption handle index with
    | .ok chosen => ⟨chosen, store, [], .ok .done⟩
    | .error rejection => ⟨machine, store, [], .error rejection.fault⟩
  | .stop => ⟨machine.stop, store, [], .ok .done⟩

end Dialogue
