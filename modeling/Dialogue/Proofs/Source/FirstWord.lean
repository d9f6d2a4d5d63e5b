import Dialogue.Proofs.Source.Columns
import Dialogue.Proofs.Source.Grammar

/-!
What a line is about. Its first word tells the directive, if it is a directive, and a line without any word is blank or
a comment. Blanks at the end of a line tell nothing.
-/

namespace Dialogue.Source

/-- The bare word that the line begins with, which is empty if a quote comes first. -/
def firstWord (line : List Char) : List Char := (line.dropWhile Text.isBlank).takeWhile isBare

/-- Whether the line is blank, or holds nothing but a comment. -/
def isIdle (line : List Char) : Bool := (line.dropWhile Text.isBlank).head?.all (· = '#')

/-- The lines differ at most in blanks at their ends. -/
def EndsAlike (line other : List Char) : Prop :=
  ∃ core ending others, line = core ++ ending ∧ other = core ++ others ∧ (∀ c ∈ ending, Text.isBlank c = true) ∧
    ∀ c ∈ others, Text.isBlank c = true

section Endings

theorem EndsAlike.refl (line : List Char) : EndsAlike line line :=
  ⟨line, [], [], (List.append_nil line).symm, (List.append_nil line).symm, by simp, by simp⟩

theorem EndsAlike.cons {line other : List Char} (c : Char) (alike : EndsAlike line other) :
    EndsAlike (c :: line) (c :: other) := by
  obtain ⟨core, ending, others, rfl, rfl, blank, blankToo⟩ := alike
  exact ⟨c :: core, ending, others, rfl, rfl, blank, blankToo⟩

theorem endsAlike_of_blanks {line other : List Char} (blank : ∀ c ∈ line, Text.isBlank c = true)
    (blankToo : ∀ c ∈ other, Text.isBlank c = true) : EndsAlike line other :=
  ⟨[], line, other, rfl, rfl, blank, blankToo⟩

theorem blanks_of_endsAlike {line : List Char} (alike : EndsAlike [] line) : ∀ c ∈ line, Text.isBlank c = true := by
  obtain ⟨core, ending, others, empty, rfl, _, blank⟩ := alike
  obtain ⟨rfl, _⟩ := List.append_eq_nil_iff.mp empty.symm
  exact blank

/-- A letter behind a backslash is no blank. -/
theorem not_escapes_of_isBlank {c meant : Char} (blank : Text.isBlank c = true) : ¬Escapes c meant := by
  rintro (_ | _ | _ | _ | _) <;> exact absurd blank (by decide)

variable {ending : List Char}

/-- Blanks at the end of a line make its margin wider, or its comment longer. -/
theorem Layout.exists_append (layout : Layout) (blank : ∀ c ∈ ending, Text.isBlank c = true) :
    ∃ longer : Layout, longer.text = layout.text ++ ending ∧ longer.pieces = layout.pieces := by
  cases comment : layout.comment with
  | none =>
    let longer : Layout := { layout with
      margin := layout.margin ++ ending
      blank := List.forall_mem_append.mpr ⟨layout.blank, blank⟩
      aside := fun _ _ _ commented => absurd comment commented }
    exact ⟨longer, by simp [longer, Layout.text, Layout.ending, comment], rfl⟩
  | some hidden =>
    let longer : Layout := { layout with
      comment := some (hidden ++ ending)
      aside := fun last member bare _ => layout.aside last member bare (by simp [comment]) }
    exact ⟨longer, by simp [longer, Layout.text, Layout.ending, comment], rfl⟩

/-- Blanks at the end of a line do not close a quoted word. -/
theorem Tear.exists_append (tear : Tear) (blank : ∀ c ∈ ending, Text.isBlank c = true) :
    ∃ longer : Tear, longer.text = tear.text ++ ending := by
  cases breach : tear.breach with
  | missing =>
    rcases exists_marks ending with ⟨marks, after, rfl⟩ | ⟨marks, further, rfl⟩
    · exact absurd (blank '"' (by simp)) (by decide)
    · exact ⟨{ tear with marks := tear.marks ++ marks, breach := further },
        by simp [Tear.text, Tear.ending, Breach.text, breach]⟩
  | cut =>
    cases ending with
    | nil => exact ⟨tear, (List.append_nil _).symm⟩
    | cons c rest =>
      have unknown : ∀ meant, ¬Escapes c meant := fun _ => not_escapes_of_isBlank (blank c List.mem_cons_self)
      exact ⟨{ tear with breach := .strange c unknown rest },
        by simp [Tear.text, Tear.ending, Breach.text, breach]⟩
  | strange letter unknown behind =>
    exact ⟨{ tear with breach := .strange letter unknown (behind ++ ending) },
      by simp [Tear.text, Tear.ending, Breach.text, breach]⟩

/-- Blanks at the end of a line end its last word and add none. -/
theorem tokenize_append_blanks {line ending : List Char} {tokens : List Token}
    (blank : ∀ c ∈ ending, Text.isBlank c = true) (column : Nat) :
    tokenize column (line ++ ending) = .ok tokens ↔ tokenize column line = .ok tokens := by
  rcases laid_or_torn line with ⟨layout, rfl⟩ | ⟨tear, rfl⟩
  · obtain ⟨longer, text, same⟩ := layout.exists_append blank
    rw [← text, tokenize_layout, tokenize_layout, Layout.tokens, Layout.tokens, same]
  · obtain ⟨longer, text⟩ := tear.exists_append blank
    rw [← text, tokenize_tear, tokenize_tear]
    constructor <;> rintro ⟨⟩

end Endings

section Beginnings

variable {column : Nat} {line : List Char}

theorem tokenize_dropWhile (column : Nat) (line : List Char) :
    tokenize column line = tokenize (column + (line.takeWhile Text.isBlank).length) (line.dropWhile Text.isBlank) := by
  rw [← tokenize_gap (List.all_eq_true.mp List.all_takeWhile), List.takeWhile_append_dropWhile]

/-- How a line begins: it has no word, or a quote comes first, or its first word stands bare. -/
theorem tokenize_cases (column : Nat) (line : List Char) :
    (isIdle line = true ∧ tokenize column line = .ok []) ∨
    (isIdle line = false ∧ ∀ own head others, tokenize column line ≠ .ok [] ∧
      tokenize column line ≠ .ok (⟨own, .bare head⟩ :: others)) ∨
    (isIdle line = false ∧ ∃ own later, tokenize column line =
      Except.map (⟨own, .bare (String.ofList (firstWord line))⟩ :: ·) later) := by
  rw [tokenize_dropWhile]
  generalize column + _ = column
  unfold isIdle firstWord
  have visible := List.head?_dropWhile_not Text.isBlank line
  generalize line.dropWhile Text.isBlank = words at visible ⊢
  cases words with
  | nil => exact .inl ⟨rfl, by rw [tokenize]⟩
  | cons c rest =>
    have visible : ¬Text.isBlank c = true := by simpa using visible
    by_cases hash : c = '#'
    · rw [hash]
      exact .inl ⟨rfl, tokenize_comment column rest⟩
    have idle : (c :: rest).head?.all (· = '#') = false := by simpa using hash
    by_cases quote : c = '"'
    · refine .inr (.inl ⟨idle, fun own head others => ?_⟩)
      rw [quote]
      cases read : readQuoted column (column + 1) rest with
      | error => rw [tokenize_misquoted read]; simp
      | ok pair =>
        rw [tokenize_quoted read]
        cases tokenize (column + _) pair.2 <;> simp [Except.map]
    · have bare : isBare c = true := by simpa [isBare, visible] using quote
      rw [tokenize_bare visible hash quote, List.takeWhile_cons_of_pos bare]
      exact .inr (.inr ⟨idle, column, _, rfl⟩)

theorem tokenize_eq_nil_iff : tokenize column line = .ok [] ↔ isIdle line = true := by
  rcases tokenize_cases column line with ⟨idle, read⟩ | ⟨idle, other⟩ | ⟨idle, own, later, read⟩
  · simp [idle, read]
  · simp [idle, (other 0 "" []).1]
  · rw [read, idle]
    cases later <;> simp [Except.map]

theorem firstWord_of_tokenize {own : Nat} {head : String} {others : List Token}
    (read : tokenize column line = .ok (⟨own, .bare head⟩ :: others)) : firstWord line = head.toList := by
  rcases tokenize_cases column line with ⟨_, found⟩ | ⟨_, other⟩ | ⟨_, own, later, found⟩
  · cases found.symm.trans read
  · exact absurd read (other own head others).2
  · obtain ⟨tokens, _, same⟩ := eq_ok_of_map (found.symm.trans read)
    cases same
    rw [String.toList_ofList]

end Beginnings

end Dialogue.Source
