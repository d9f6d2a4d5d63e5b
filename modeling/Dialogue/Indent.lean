/-!
Indentation of a source line. A tab counts eight, a space one; a mixture is measured all the same but noted, since
editors disagree on its width.
-/

namespace Dialogue

def tabWidth : Nat := 8

structure Indentation where
  width : Nat
  mixed : Bool
deriving DecidableEq

/-- Measures the spaces and tabs at the start of a line. -/
def Indentation.measure (line : String) : Indentation :=
  let margin := line.toList.takeWhile fun c => c = ' ' || c = '\t'
  let tabs := margin.count '\t'
  let spaces := margin.count ' '
  ⟨spaces + tabWidth * tabs, 0 < tabs && 0 < spaces⟩

end Dialogue
