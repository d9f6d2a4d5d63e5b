/-!
Lines of a text. A line ends at a line feed, and one carriage return right before it belongs to that ending;
the last line needs no ending, and an ending is not followed by an empty line.
-/

namespace Dialogue.Text

/-- The lines of a row of characters or bytes without their endings. -/
def linesOf {α : Type} [DecidableEq α] (feed carriage : α) : List α → List (List α)
  | [] => []
  | c :: rest =>
    if c = feed then [] :: linesOf feed carriage rest
    else if c = carriage ∧ rest.head? = some feed then linesOf feed carriage rest
    else match linesOf feed carriage rest with
      | [] => [[c]]
      | line :: others => (c :: line) :: others

def lines (text : List Char) : List (List Char) := linesOf '\n' '\r' text

end Dialogue.Text
