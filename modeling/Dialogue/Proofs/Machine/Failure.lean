import Dialogue.Proofs.Machine.Options

/-!
What a step that fails leaves behind. The host is told of the fault and of nothing else, the store is as it was, and the
machine stands where it stood, so that the instruction that failed can be seen and tried again. Only a function that
fails has taken its arguments.
-/

namespace Dialogue

variable {σ : Type}

namespace Machine

variable [VariableStore σ] {machine : Machine} {store : σ} {stage : Stage} {fault : Fault}

/-- A fault of an instruction that was refused stops the machine, whatever the reason is. -/
theorem Refuses.stops {node : Node} {instruction : Instruction}
    (reason : machine.Refuses stage node instruction fault) :
    fault.isFatal = true ∧ fault ≠ .stillWaiting ∧ ∀ name message, fault ≠ .functionFailed name message := by
  cases reason <;> exact ⟨rfl, by simp, by simp⟩

end Machine

namespace Machine

variable [VariableStore σ] {machine : Machine} {store : σ} {stage : Stage} {fault : Fault}

end Machine

section Toll

/-- A node that pays with more coins than the function takes. -/
def toll : Program where
  name := "toll"
  strings := []
  nodes := [⟨"Toll", [], [.pushBool true, .pushNull, .pushBool false, .callFunction "pay"]⟩]
  ascending := List.pairwise_singleton _ _

def payingMachine : Machine where
  node := some "Toll"
  position := 3
  stack := [.bool false, .null, .bool true]
  pending := []
  status := .running
  steps := 3
  ticket := 0

end Toll

end Dialogue
