import Dialogue.Proofs.Source.Grammar
import Dialogue.Proofs.Source.Statement

/-!
Where a line is wrong. Words stand where their first characters stand, and whatever is said to be wrong with a line is
said of one of its characters.
-/

namespace Dialogue.Source

/-- What is wrong, if anything is, is in such a column. -/
def ErrsAt {α ε : Type} (holds : Nat → Prop) (found : Except (Nat × ε) α) : Prop :=
  ∀ column error, found = .error (column, error) → holds column

namespace ErrsAt

variable {α β ε : Type} {holds : Nat → Prop} {found : Except (Nat × ε) α}

theorem ok (value : α) : ErrsAt holds (.ok value : Except (Nat × ε) α) := by rintro column error ⟨⟩

theorem error {column : Nat} {error : ε} (held : holds column) :
    ErrsAt holds (.error (column, error) : Except (Nat × ε) α) := by
  rintro _ _ ⟨⟩
  exact held

theorem map (errs : ErrsAt holds found) (f : α → β) : ErrsAt holds (found.map f) := by
  intro column error failed
  cases found with
  | error pair =>
    cases failed
    exact errs column error rfl
  | ok value => cases failed

end ErrsAt

section Words

/-- The column of a character of the line, whose first one stands in the column `first`. -/
def InLine (first : Nat) (line : List Char) (column : Nat) : Prop := first ≤ column ∧ column < first + line.length

variable {first column : Nat} {line : List Char}

theorem InLine.of_rest {later : Nat} {rest : List Char} (inside : InLine later rest column) (behind : first ≤ later)
    (ends : later + rest.length ≤ first + line.length) : InLine first line column :=
  ⟨Nat.le_trans behind inside.1, Nat.lt_of_lt_of_le inside.2 ends⟩

theorem Spelling.length_pos (spelling : Spelling) : 0 < spelling.text.length := by
  cases spelling with
  | bare text proper => exact List.length_pos_iff.mpr proper.1
  | quoted marks => exact Nat.zero_lt_succ _

theorem Piece.inLine_tokens (first : Nat) (pieces : List Piece) (ending : List Char) :
    ∀ token ∈ Piece.tokens first pieces, InLine first (pieces.flatMap Piece.text ++ ending) token.column := by
  induction pieces generalizing first with
  | nil => simp [Piece.tokens]
  | cons piece pieces ih =>
    have some := piece.spelling.length_pos
    have length : ((piece :: pieces).flatMap Piece.text ++ ending).length =
        piece.gap.length + piece.spelling.text.length + (pieces.flatMap Piece.text ++ ending).length := by
      simp only [List.flatMap_cons, List.length_append, Piece.text]
      omega
    have behind : piece.text.length = piece.gap.length + piece.spelling.text.length := List.length_append
    refine List.forall_mem_cons.mpr ⟨⟨by dsimp only; omega, by dsimp only; omega⟩, fun token member => ?_⟩
    exact (ih _ token member).of_rest (by omega) (by omega)

/-- A missing quote is reported where the word opened, and a faulty escape where its letter stands. -/
theorem Tear.inLine_complaint (tear : Tear) (first : Nat) : InLine first tear.text (tear.complaint first).1 := by
  have length : tear.text.length = (tear.pieces.flatMap Piece.text).length + tear.gap.length + 1 +
      (tear.marks.flatMap Mark.text).length + tear.breach.text.length := by
    simp only [Tear.text, Tear.ending, List.length_append, List.length_cons]
    omega
  unfold Tear.complaint InLine
  cases breach : tear.breach with
  | missing | cut =>
    dsimp only [Breach.complaint]
    omega
  | strange letter unknown behind =>
    rw [breach] at length
    simp only [Breach.text, List.length_cons] at length
    dsimp only [Breach.complaint]
    omega

theorem errsAt_tokenize (first : Nat) (line : List Char) : ErrsAt (InLine first line) (tokenize first line) := by
  rcases laid_or_torn line with ⟨layout, rfl⟩ | ⟨tear, rfl⟩
  · rw [tokenize_layout]
    exact ErrsAt.ok _
  · rw [tokenize_tear]
    exact ErrsAt.error (tear.inLine_complaint first)

theorem inLine_of_tokenize (first : Nat) (line : List Char) {tokens : List Token}
    (read : tokenize first line = .ok tokens) : ∀ token ∈ tokens, InLine first line token.column := by
  rcases laid_or_torn line with ⟨layout, rfl⟩ | ⟨tear, rfl⟩
  · cases (tokenize_layout layout first).symm.trans read
    exact Piece.inLine_tokens first layout.pieces layout.ending
  · cases (tokenize_tear tear first).symm.trans read

end Words

section Statements

variable {holds : Nat → Prop}

theorem errsAt_readIndex {token : Token} (held : holds token.column) : ErrsAt holds (readIndex token) := by
  unfold readIndex
  split
  · exact .error held
  · split
    · exact .ok _
    · exact .error held

theorem errsAt_readOptionText {token : Token} (held : holds token.column) : ErrsAt holds (readOptionText token) := by
  unfold readOptionText
  split
  · exact .ok _
  · exact (errsAt_readIndex held).map some

theorem errsAt_readNumber {token : Token} (held : holds token.column) : ErrsAt holds (readNumber token) := by
  unfold readNumber
  split
  · exact .ok _
  · exact .error held

theorem errsAt_readBool {token : Token} (held : holds token.column) : ErrsAt holds (readBool token) := by
  unfold readBool
  split
  · exact .ok _
  · split
    · exact .ok _
    · exact .error held

variable {column : Nat} {operands : List Token}

theorem errsAt_readNodeName (held : holds column) : ErrsAt holds (readNodeName column operands) := by
  unfold readNodeName
  split
  · exact .error held
  · split
    · exact .error held
    · exact .ok _

variable (held : holds column) (each : ∀ token ∈ operands, holds token.column)

include held each

theorem errsAt_readInstruction (opcode : Opcode) : ErrsAt holds (readInstruction column opcode operands) := by
  unfold readInstruction
  split
  case h_5 | h_9 => exact (errsAt_readIndex (each _ List.mem_cons_self)).map _
  case h_7 => exact (errsAt_readOptionText (each _ List.mem_cons_self)).map _
  case h_10 => exact (errsAt_readNumber (each _ List.mem_cons_self)).map _
  case h_11 => exact (errsAt_readBool (each _ List.mem_cons_self)).map _
  case h_19 => exact .error held
  all_goals exact .ok _

/-- What is wrong with a statement is its directive or one of its operands. -/
theorem errsAt_readStatement (head : String) : ErrsAt holds (readStatement column head operands) := by
  unfold readStatement
  split
  · split
    · exact .ok _
    · exact .error held
  split
  · split
    · exact (errsAt_readIndex (each _ List.mem_cons_self)).map _
    · exact .error held
  split
  · exact (errsAt_readNodeName held).map _
  split
  · exact .ok _
  split
  · exact .error held
  · exact (errsAt_readInstruction held each _).map _

end Statements

section Lines

variable {line : List Char} {column : Nat}

theorem errsAt_readLine (line : List Char) : ErrsAt (InLine 1 line) (readLine line) := by
  unfold readLine
  split
  next column misspelling misspelled => exact .error (errsAt_tokenize 1 line column misspelling misspelled)
  next => exact .ok _
  next column text operands read => exact .error (inLine_of_tokenize 1 line read _ List.mem_cons_self)
  next column head operands read =>
    obtain ⟨first, others⟩ := List.forall_mem_cons.mp (inLine_of_tokenize 1 line read)
    exact (errsAt_readStatement first others head).map _

theorem inLine_of_readLine {statement : Statement} (read : readLine line = .ok (some (column, statement))) :
    InLine 1 line column := by
  unfold readLine at read
  split at read
  next => cases read
  next => cases read
  next => cases read
  next own head operands tokenized =>
    obtain ⟨stated, _, same⟩ := eq_ok_of_map read
    cases same
    exact inLine_of_tokenize 1 line tokenized _ List.mem_cons_self

/-- Whatever keeps a draft from taking a line is somewhere in that line. -/
theorem errsAt_addLine (draft : Draft) (line : List Char) : ErrsAt (InLine 1 line) (draft.addLine line) := by
  intro column defect failed
  rcases Draft.addLine_eq_error.mp failed with misread | ⟨statement, read, _⟩
  · exact errsAt_readLine line column defect misread
  · exact inLine_of_readLine read

end Lines

end Dialogue.Source
