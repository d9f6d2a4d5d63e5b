import Dialogue.Number.Basic

/-!
Variable stores. A machine needs no more of a store than to read and to write numbers under a name; `Storage` is
the store that lives in memory and answers a default for a variable that was never set.
-/

namespace Dialogue

class VariableStore (σ : Type) where
  read : σ → String → Number
  write : σ → String → Number → σ

structure Storage where
  fallback : Number
  entries : List (String × Number)
deriving DecidableEq

namespace Storage

/-- The empty store that answers `fallback` for every variable. -/
def withDefault (fallback : Number) : Storage := ⟨fallback, []⟩

def empty : Storage := withDefault (.zero false)

def find? (storage : Storage) (name : String) : Option Number :=
  (storage.entries.find? fun entry => entry.1 = name).map Prod.snd

def read (storage : Storage) (name : String) : Number := (storage.find? name).getD storage.fallback

def write (storage : Storage) (name : String) (value : Number) : Storage :=
  { storage with entries := (name, value) :: storage.entries.filter fun entry => entry.1 ≠ name }

def contains (storage : Storage) (name : String) : Bool := (storage.find? name).isSome

def clear (storage : Storage) : Storage := { storage with entries := [] }

theorem read_write_same (storage : Storage) (name : String) (value : Number) :
    (storage.write name value).read name = value := by
  simp [read, find?, write]

/-- Writing one variable leaves the others alone. -/
theorem read_write_other (storage : Storage) {name other : String} (value : Number) (differs : other ≠ name) :
    (storage.write name value).read other = storage.read other := by
  have kept : (storage.write name value).find? other = storage.find? other := by
    simp only [find?, write, List.find?_cons, Ne.symm differs, decide_false, List.find?_filter]
    congr 2
    funext entry
    by_cases same : entry.1 = other <;> simp [same, differs]
  exact congrArg (Option.getD · storage.fallback) kept

theorem read_clear (storage : Storage) (name : String) : storage.clear.read name = storage.fallback := rfl

instance : VariableStore Storage := ⟨read, write⟩

end Storage

end Dialogue
