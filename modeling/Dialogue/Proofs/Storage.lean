import Dialogue.Storage

/-!
When two stores are the same to those who use them: they answer the same, and go on doing so whatever is written to
both.
-/

namespace Dialogue

variable {σ τ : Type}

/-- Writing the same to stores that match leaves them matching. -/
def KeptByWrites [VariableStore σ] [VariableStore τ] (same : σ → τ → Prop) : Prop :=
  ∀ {store other}, same store other → ∀ name value,
    same (VariableStore.write store name value) (VariableStore.write other name value)

theorem keptByWrites_eq [VariableStore σ] : KeptByWrites (@Eq σ) := by
  rintro store _ rfl name value
  rfl

/-- A store whose variables have nothing to do with each other. -/
class SeparateVariables (σ : Type) [VariableStore σ] : Prop where
  overwrites (store other : σ) (name : String) (value : Number) :
    VariableStore.read (VariableStore.write store name value) name =
      VariableStore.read (VariableStore.write other name value) name
  leaves (store : σ) {name other : String} (value : Number) (differs : other ≠ name) :
    VariableStore.read (VariableStore.write store name value) other = VariableStore.read store other

instance : SeparateVariables Storage where
  overwrites store other name value := calc
    (store.write name value).read name = value := store.read_write_same name value
    _ = (other.write name value).read name := (other.read_write_same name value).symm
  leaves store _ _ value differs := store.read_write_other value differs

/-- Stores that agree on some variables go on doing so. -/
theorem keptByWrites_agree [VariableStore σ] [SeparateVariables σ] (shared : String → Prop) :
    KeptByWrites fun store other : σ =>
      ∀ name, shared name → VariableStore.read store name = VariableStore.read other name := by
  intro store other agree written value name among
  by_cases same : name = written
  · subst same
    exact SeparateVariables.overwrites store other name value
  · rw [SeparateVariables.leaves store value same, SeparateVariables.leaves other value same]
    exact agree name among

theorem keptByWrites_reads [VariableStore σ] [SeparateVariables σ] :
    KeptByWrites fun store other : σ => VariableStore.read store = VariableStore.read other := by
  intro store other agree written value
  funext name
  exact keptByWrites_agree (fun _ => True) (fun name _ => congrFun agree name) written value name trivial

end Dialogue
