import Dialogue.Text.Blank
import Dialogue.Text.Quoted

/-!
Words of a source line. A word is bare or quoted; blanks separate bare words, a quote ends one, and a hash where
a word would start hides the rest of the line.
-/

namespace Dialogue.Source

inductive Word where
  | bare (text : String)
  | quoted (text : String)
deriving DecidableEq

def Word.text : Word → String
  | .bare text | .quoted text => text

/-- A word and the column of its first character, counted from one. -/
structure Token where
  column : Nat
  word : Word
deriving DecidableEq

def Token.text (token : Token) : String := token.word.text

inductive Misspelling where
  | unterminated
  | unknownEscape (letter : Char)
deriving DecidableEq

/-- A character that a bare word may hold behind its first one. -/
def isBare (c : Char) : Bool := !Text.isBlank c && c != '"'

def prepend (c : Char) : List Char × List Char → List Char × List Char := fun (text, after) => (c :: text, after)

/-- Reads the inside of a quoted word up to its closing quote, and returns what stands behind that. A faulty escape
is reported where its letter stands, and a missing quote where the word opened. -/
def readQuoted (opening column : Nat) : List Char → Except (Nat × Misspelling) (List Char × List Char)
  | [] => .error (opening, .unterminated)
  | c :: rest =>
    if c = '"' then .ok ([], rest)
    else if c = '\\' then
      match rest with
      | [] => .error (opening, .unterminated)
      | letter :: behind =>
        match Text.unescapeLetter? letter with
        | none => .error (column + 1, .unknownEscape letter)
        | some meant => (readQuoted opening (column + 2) behind).map (prepend meant)
    else (readQuoted opening (column + 1) rest).map (prepend c)

theorem ok_of_map_prepend {ε : Type} {c : Char} {found : Except ε (List Char × List Char)} {text after : List Char}
    (mapped : found.map (prepend c) = .ok (text, after)) :
    ∃ inner, found = .ok (inner, after) ∧ text = c :: inner := by
  cases found with
  | error => simp [Except.map] at mapped
  | ok pair =>
    simp only [Except.map, prepend, Except.ok.injEq, Prod.mk.injEq] at mapped
    exact ⟨pair.1, by rw [← mapped.2], mapped.1.symm⟩

theorem length_of_readQuoted {opening column : Nat} {input text after : List Char}
    (read : readQuoted opening column input = .ok (text, after)) : after.length < input.length := by
  fun_induction readQuoted opening column input generalizing text with
  | case1 => simp at read
  | case2 => simp_all
  | case3 => simp at read
  | case4 => simp at read
  | case5 _ _ behind meant _ _ ih =>
    obtain ⟨inner, readInner, _⟩ := ok_of_map_prepend read
    have shorter := ih readInner
    simp only [List.length_cons]
    omega
  | case6 _ c rest _ _ ih =>
    obtain ⟨inner, readInner, _⟩ := ok_of_map_prepend read
    have shorter := ih readInner
    simp only [List.length_cons]
    omega

/-- The words of a line whose first character stands in the given column. -/
def tokenize (column : Nat) (line : List Char) : Except (Nat × Misspelling) (List Token) :=
  match line with
  | [] => .ok []
  | c :: rest =>
    if Text.isBlank c then tokenize (column + 1) rest
    else if c = '#' then .ok []
    else if c = '"' then
      match found : readQuoted column (column + 1) rest with
      | .error misspelling => .error misspelling
      | .ok (text, after) =>
        have : after.length < rest.length := length_of_readQuoted found
        (tokenize (column + (line.length - after.length)) after).map
          (⟨column, .quoted (String.ofList text)⟩ :: ·)
    else
      have : (rest.dropWhile isBare).length ≤ rest.length := (List.dropWhile_sublist isBare).length_le
      (tokenize (column + 1 + (rest.takeWhile isBare).length) (rest.dropWhile isBare)).map
        (⟨column, .bare (String.ofList (c :: rest.takeWhile isBare))⟩ :: ·)
termination_by line.length

end Dialogue.Source
