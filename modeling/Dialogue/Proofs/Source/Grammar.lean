import Dialogue.Proofs.Source.Spelling
import Mathlib.Data.List.Chain

/-!
The grammar of a line. A line is laid out as words with blanks between them and a comment behind them, if there is one;
words may touch, unless both of them are bare. `Layout` says what may be written and which words are meant by it, and
the reader of words accepts just that. A line that is not laid out in this way breaks off within a quoted word, which
`Tear` describes.
-/

namespace Dialogue.Source

/-- A letter behind a backslash, and the character that the two stand for. -/
inductive Escapes : Char → Char → Prop
  | feed : Escapes 'n' '\n'
  | tab : Escapes 't' '\t'
  | carriage : Escapes 'r' '\r'
  | backslash : Escapes '\\' '\\'
  | quote : Escapes '"' '"'

theorem escapes_iff {letter meant : Char} : Escapes letter meant ↔ Text.unescapeLetter? letter = some meant := by
  constructor
  · rintro (_ | _ | _ | _ | _) <;> rfl
  · unfold Text.unescapeLetter?
    split_ifs with feed tab carriage backslash quote <;> rintro ⟨⟩ <;> subst letter
    · exact .feed
    · exact .tab
    · exact .carriage
    · exact .backslash
    · exact .quote

/-- A character of a quoted word as it is written, by itself or by an escape. -/
inductive Mark where
  | plain (c : Char) (noQuote : c ≠ '"') (noEscape : c ≠ '\\')
  | escaped (letter meant : Char) (means : Escapes letter meant)

namespace Mark

def text : Mark → List Char
  | .plain c _ _ => [c]
  | .escaped letter _ _ => ['\\', letter]

def meant : Mark → Char
  | .plain c _ _ => c
  | .escaped _ meant _ => meant

end Mark

/-- A word as it is written into a line. -/
inductive Spelling where
  | bare (text : List Char) (proper : IsBareWord text)
  | quoted (marks : List Mark)

namespace Spelling

def text : Spelling → List Char
  | .bare text _ => text
  | .quoted marks => '"' :: marks.flatMap Mark.text ++ ['"']

def word : Spelling → Word
  | .bare text _ => .bare (String.ofList text)
  | .quoted marks => .quoted (String.ofList (marks.map Mark.meant))

def isBare : Spelling → Bool
  | .bare _ _ => true
  | .quoted _ => false

end Spelling

/-- A word with the blanks in front of it. -/
structure Piece where
  gap : List Char
  blank : ∀ c ∈ gap, Text.isBlank c = true
  spelling : Spelling

namespace Piece

def text (piece : Piece) : List Char := piece.gap ++ piece.spelling.text

/-- Two bare words are kept apart by a blank at least. -/
def Apart (first second : Piece) : Prop :=
  first.spelling.isBare = true → second.spelling.isBare = true → second.gap ≠ []

/-- The words of the pieces, the first of which begins in the given column. -/
def tokens (column : Nat) : List Piece → List Token
  | [] => []
  | piece :: rest =>
    ⟨column + piece.gap.length, piece.spelling.word⟩ :: tokens (column + piece.text.length) rest

end Piece

/-- A line as it may be written: words, blanks behind them and a comment, which no bare word touches. -/
structure Layout where
  pieces : List Piece
  apart : pieces.IsChain Piece.Apart
  margin : List Char
  blank : ∀ c ∈ margin, Text.isBlank c = true
  comment : Option (List Char)
  aside : ∀ last ∈ pieces.getLast?, last.spelling.isBare = true → comment ≠ none → margin ≠ []

namespace Layout

def ending (layout : Layout) : List Char := layout.margin ++ (layout.comment.map ('#' :: ·)).getD []

def text (layout : Layout) : List Char := layout.pieces.flatMap Piece.text ++ layout.ending

/-- The words in their order, each with the column of its first character, in a line that begins in the column
`first`. -/
def tokens (layout : Layout) (first : Nat) : List Token := Piece.tokens first layout.pieces

end Layout

/-- What keeps a quoted word from being closed: the line ends, or a backslash ends it, or a letter stands behind a
backslash that nothing is escaped by. -/
inductive Breach where
  | missing
  | cut
  | strange (letter : Char) (unknown : ∀ meant, ¬Escapes letter meant) (behind : List Char)

namespace Breach

def text : Breach → List Char
  | .missing => []
  | .cut => ['\\']
  | .strange letter _ behind => '\\' :: letter :: behind

/-- A quote that is missing is reported where the word opened, and a strange letter where it stands. -/
def complaint (opening column : Nat) : Breach → Nat × Misspelling
  | .missing | .cut => (opening, .unterminated)
  | .strange letter _ _ => (column + 1, .unknownEscape letter)

end Breach

/-- A line that breaks off within a quoted word. -/
structure Tear where
  pieces : List Piece
  apart : pieces.IsChain Piece.Apart
  gap : List Char
  blank : ∀ c ∈ gap, Text.isBlank c = true
  marks : List Mark
  breach : Breach

namespace Tear

def ending (tear : Tear) : List Char := tear.gap ++ '"' :: tear.marks.flatMap Mark.text ++ tear.breach.text

def text (tear : Tear) : List Char := tear.pieces.flatMap Piece.text ++ tear.ending

def complaint (tear : Tear) (first : Nat) : Nat × Misspelling :=
  let opening := first + (tear.pieces.flatMap Piece.text).length + tear.gap.length
  tear.breach.complaint opening (opening + 1 + (tear.marks.flatMap Mark.text).length)

end Tear

section Quoted

variable {opening column : Nat} {marks : List Mark}

theorem readQuoted_mark (mark : Mark) (opening column : Nat) (rest : List Char) :
    readQuoted opening column (mark.text ++ rest) =
      (readQuoted opening (column + mark.text.length) rest).map (prepend mark.meant) := by
  cases mark with
  | plain c noQuote noEscape => exact readQuoted_plain noQuote noEscape opening column rest
  | escaped letter meant means => exact readQuoted_escaped (escapes_iff.mp means) opening column rest

theorem readQuoted_closing (opening column : Nat) (marks : List Mark) (rest : List Char) :
    readQuoted opening column (marks.flatMap Mark.text ++ '"' :: rest) = .ok (marks.map Mark.meant, rest) := by
  induction marks generalizing column with
  | nil => exact readQuoted_closed opening column rest
  | cons mark marks ih =>
    rw [List.flatMap_cons, List.append_assoc, readQuoted_mark, ih]
    rfl

theorem readQuoted_torn (opening column : Nat) (marks : List Mark) (breach : Breach) :
    readQuoted opening column (marks.flatMap Mark.text ++ breach.text) =
      .error (breach.complaint opening (column + (marks.flatMap Mark.text).length)) := by
  induction marks generalizing column with
  | nil =>
    cases breach with
    | missing | cut => rfl
    | strange letter unknown behind =>
      apply readQuoted_unknown
      cases known : Text.unescapeLetter? letter with
      | none => rfl
      | some meant => exact absurd (escapes_iff.mpr known) (unknown meant)
  | cons mark marks ih =>
    rw [List.flatMap_cons, List.append_assoc, readQuoted_mark, ih, List.length_append, Nat.add_assoc]
    rfl

/-- However the line goes on behind a quote, the quoted word is closed or breaks off. -/
theorem exists_marks (line : List Char) :
    (∃ (marks : List Mark) (after : List Char), line = marks.flatMap Mark.text ++ '"' :: after) ∨
      ∃ (marks : List Mark) (breach : Breach), line = marks.flatMap Mark.text ++ breach.text := by
  -- The cases are those of the reader, whose columns do not matter here.
  fun_induction readQuoted 0 0 line with
  | case1 => exact .inr ⟨[], .missing, rfl⟩
  | case2 _ rest => exact .inl ⟨[], rest, rfl⟩
  | case3 => exact .inr ⟨[], .cut, rfl⟩
  | case4 _ letter behind unknown =>
    refine .inr ⟨[], .strange letter (fun meant means => ?_) behind, rfl⟩
    rw [escapes_iff, unknown] at means
    cases means
  | case5 _ letter behind meant known _ ih =>
    let mark : Mark := .escaped letter meant (escapes_iff.mpr known)
    rcases ih with ⟨marks, after, rfl⟩ | ⟨marks, breach, rfl⟩
    · exact .inl ⟨mark :: marks, after, rfl⟩
    · exact .inr ⟨mark :: marks, breach, rfl⟩
  | case6 _ c rest noQuote noEscape ih =>
    let mark : Mark := .plain c noQuote noEscape
    rcases ih with ⟨marks, after, rfl⟩ | ⟨marks, breach, rfl⟩
    · exact .inl ⟨mark :: marks, after, rfl⟩
    · exact .inr ⟨mark :: marks, breach, rfl⟩

end Quoted

section Reading

theorem endsWord_gap {gap rest : List Char} (blank : ∀ c ∈ gap, Text.isBlank c = true)
    (ends : gap = [] → EndsWord rest) : EndsWord (gap ++ rest) := by
  cases gap with
  | nil => exact ends rfl
  | cons c gap => exact endsWord_cons (by simp [isBare, blank c List.mem_cons_self])

/-- A word that may touch a bare one ends it. -/
theorem endsWord_piece {first next : Piece} (apart : first.Apart next) (bare : first.spelling.isBare = true)
    (rest : List Char) : EndsWord (next.text ++ rest) := by
  rw [Piece.text, List.append_assoc]
  apply endsWord_gap next.blank
  intro touches
  cases spelling : next.spelling with
  | bare => exact absurd touches (apart bare (by rw [spelling]; rfl))
  | quoted => exact endsWord_cons (by decide)

theorem endsWord_pieces {piece : Piece} {pieces : List Piece} {ending : List Char}
    (apart : (piece :: pieces).IsChain Piece.Apart)
    (ends : ∀ last ∈ (piece :: pieces).getLast?, last.spelling.isBare = true → EndsWord ending)
    (bare : piece.spelling.isBare = true) : EndsWord (pieces.flatMap Piece.text ++ ending) := by
  cases pieces with
  | nil => exact ends piece rfl bare
  | cons next others =>
    rw [List.flatMap_cons, List.append_assoc]
    exact endsWord_piece (List.isChain_cons_cons.mp apart).1 bare _

theorem tokenize_spelling {spelling : Spelling} {rest : List Char}
    (ends : spelling.isBare = true → EndsWord rest) (column : Nat) :
    tokenize column (spelling.text ++ rest) =
      (tokenize (column + spelling.text.length) rest).map (⟨column, spelling.word⟩ :: ·) := by
  cases spelling with
  | bare text proper => exact tokenize_bareWord proper (ends rfl) column
  | quoted marks =>
    have line : (Spelling.quoted marks).text ++ rest = '"' :: (marks.flatMap Mark.text ++ '"' :: rest) := by
      simp [Spelling.text]
    have length : ('"' :: (marks.flatMap Mark.text ++ '"' :: rest)).length - rest.length =
        (Spelling.quoted marks).text.length := by
      rw [← line, List.length_append, Nat.add_sub_cancel]
    rw [line, tokenize_quoted (readQuoted_closing column (column + 1) marks rest), length]
    rfl

/-- The words of the pieces are read one after the other, and then what is behind them. -/
theorem tokenize_pieces {pieces : List Piece} {ending : List Char} (apart : pieces.IsChain Piece.Apart)
    (ends : ∀ last ∈ pieces.getLast?, last.spelling.isBare = true → EndsWord ending) (column : Nat) :
    tokenize column (pieces.flatMap Piece.text ++ ending) =
      (tokenize (column + (pieces.flatMap Piece.text).length) ending).map (Piece.tokens column pieces ++ ·) := by
  induction pieces generalizing column with
  | nil =>
    show tokenize column ending = (tokenize column ending).map id
    cases tokenize column ending <;> rfl
  | cons piece pieces ih =>
    have later : ∀ last ∈ pieces.getLast?, last.spelling.isBare = true → EndsWord ending := by
      intro last member
      apply ends last
      cases pieces with
      | nil => cases member
      | cons next others => exact member
    calc
      _ = tokenize column (piece.gap ++ (piece.spelling.text ++ (pieces.flatMap Piece.text ++ ending))) := by
        rw [List.flatMap_cons, Piece.text, List.append_assoc, List.append_assoc]
      _ = (tokenize (column + piece.text.length) (pieces.flatMap Piece.text ++ ending)).map
          (⟨column + piece.gap.length, piece.spelling.word⟩ :: ·) := by
        rw [tokenize_gap piece.blank, tokenize_spelling (endsWord_pieces apart ends), Piece.text, List.length_append,
          Nat.add_assoc]
      _ = _ := by
        rw [ih apart.tail later, List.flatMap_cons, List.length_append, ← Nat.add_assoc]
        cases tokenize _ ending <;> rfl

/-- A line that is laid out is read as its words. -/
theorem tokenize_layout (layout : Layout) (first : Nat) : tokenize first layout.text = .ok (layout.tokens first) := by
  have ends : ∀ last ∈ layout.pieces.getLast?, last.spelling.isBare = true → EndsWord layout.ending := by
    intro last member bare
    apply endsWord_gap layout.blank
    intro touches
    cases comment : layout.comment with
    | none => exact endsWord_nil
    | some hidden => exact absurd touches (layout.aside last member bare (by simp [comment]))
  have nothing : ∀ column, tokenize column layout.ending = .ok [] := by
    intro column
    rw [Layout.ending, tokenize_gap layout.blank]
    cases layout.comment with
    | none => rw [Option.map_none, Option.getD_none, tokenize]
    | some hidden => exact tokenize_comment _ hidden
  rw [Layout.text, tokenize_pieces layout.apart ends, nothing]
  exact congrArg Except.ok (List.append_nil _)

/-- A line that breaks off is refused where the breach is. -/
theorem tokenize_tear (tear : Tear) (first : Nat) : tokenize first tear.text = .error (tear.complaint first) := by
  have ends : ∀ last ∈ tear.pieces.getLast?, last.spelling.isBare = true → EndsWord tear.ending := by
    intro last member bare
    rw [Tear.ending, List.append_assoc]
    exact endsWord_gap tear.blank fun _ => endsWord_cons (by decide)
  have refused : tokenize (first + (tear.pieces.flatMap Piece.text).length) tear.ending =
      .error (tear.complaint first) := by
    rw [Tear.ending, List.append_assoc, tokenize_gap tear.blank, List.cons_append]
    apply tokenize_misquoted
    exact readQuoted_torn _ _ tear.marks tear.breach
  rw [Tear.text, tokenize_pieces tear.apart ends, refused]
  rfl

end Reading

section Writing

theorem head_of_isBare {spelling : Spelling} (bare : spelling.isBare = true) :
    ∃ c rest, spelling.text = c :: rest ∧ isBare c = true := by
  cases spelling with
  | quoted => cases bare
  | bare text proper =>
    obtain ⟨some, _, all⟩ := proper
    obtain ⟨c, rest, rfl⟩ := List.exists_cons_of_ne_nil some
    exact ⟨c, rest, rfl, all c List.mem_cons_self⟩

/-- A bare word that ends where the others begin does not touch another bare one. -/
theorem isChain_cons_of_endsWord {piece : Piece} {pieces : List Piece} {ending : List Char}
    (apart : pieces.IsChain Piece.Apart)
    (ends : piece.spelling.isBare = true → EndsWord (pieces.flatMap Piece.text ++ ending)) :
    (piece :: pieces).IsChain Piece.Apart := by
  refine List.isChain_cons.mpr ⟨fun next first bare nextBare touches => ?_, apart⟩
  obtain ⟨others, rfl⟩ := List.head?_eq_some_iff.mp first
  obtain ⟨c, rest, text, holds⟩ := head_of_isBare nextBare
  have stops : isBare c = false := ends bare c (by simp [Piece.text, touches, text])
  rw [holds] at stops
  cases stops

variable {piece : Piece}

theorem Layout.exists_cons (layout : Layout) (ends : piece.spelling.isBare = true → EndsWord layout.text) :
    ∃ longer : Layout, longer.text = piece.text ++ layout.text := by
  refine ⟨{ layout with
    pieces := piece :: layout.pieces
    apart := isChain_cons_of_endsWord layout.apart ends
    aside := ?_ }, ?_⟩
  · intro last member bare commented
    cases pieces : layout.pieces with
    | nil =>
      rw [pieces] at member
      cases member
      intro touches
      obtain ⟨hidden, comment⟩ := Option.ne_none_iff_exists'.mp commented
      have stops := ends bare '#' (by simp [Layout.text, Layout.ending, pieces, touches, comment])
      cases stops
    | cons next others =>
      rw [pieces] at member
      exact layout.aside last (by rw [pieces]; exact member) bare commented
  · show (piece :: layout.pieces).flatMap Piece.text ++ layout.ending = _
    rw [List.flatMap_cons, List.append_assoc]
    rfl

theorem Tear.exists_cons (tear : Tear) (ends : piece.spelling.isBare = true → EndsWord tear.text) :
    ∃ longer : Tear, longer.text = piece.text ++ tear.text := by
  refine ⟨{ tear with pieces := piece :: tear.pieces, apart := isChain_cons_of_endsWord tear.apart ends }, ?_⟩
  show (piece :: tear.pieces).flatMap Piece.text ++ tear.ending = _
  rw [List.flatMap_cons, List.append_assoc]
  rfl

/-- A line in front of which a word is written. -/
theorem laid_or_torn_cons (piece : Piece) {rest : List Char}
    (known : (∃ layout : Layout, layout.text = rest) ∨ ∃ tear : Tear, tear.text = rest)
    (ends : piece.spelling.isBare = true → EndsWord rest) :
    (∃ layout : Layout, layout.text = piece.text ++ rest) ∨ ∃ tear : Tear, tear.text = piece.text ++ rest := by
  rcases known with ⟨layout, rfl⟩ | ⟨tear, rfl⟩
  · exact .inl (layout.exists_cons ends)
  · exact .inr (tear.exists_cons ends)

/-- Every line is laid out or breaks off. -/
theorem laid_or_torn (line : List Char) :
    (∃ layout : Layout, layout.text = line) ∨ ∃ tear : Tear, tear.text = line := by
  -- By the length of the line, since what is behind its first word is shorter.
  induction length : line.length using Nat.strong_induction_on generalizing line with
  | _ bound shorter =>
    have split := List.takeWhile_append_dropWhile (p := Text.isBlank) (l := line)
    have blank := List.all_eq_true.mp (List.all_takeWhile (p := Text.isBlank) (l := line))
    have visible := List.head?_dropWhile_not Text.isBlank line
    generalize line.takeWhile Text.isBlank = gap at split blank
    generalize line.dropWhile Text.isBlank = words at split visible
    subst split
    cases words with
    | nil => exact .inl ⟨⟨[], .nil, gap, blank, none, by simp⟩, rfl⟩
    | cons c rest =>
      simp only [List.length_append, List.length_cons] at length
      by_cases hash : c = '#'
      · rw [hash]
        exact .inl ⟨⟨[], .nil, gap, blank, some rest, by simp⟩, rfl⟩
      by_cases quote : c = '"'
      · rw [quote]
        rcases exists_marks rest with ⟨marks, after, rfl⟩ | ⟨marks, breach, rfl⟩
        · simp only [List.length_append, List.length_cons] at length
          have behind := shorter after.length (by omega) after rfl
          have written := laid_or_torn_cons ⟨gap, blank, .quoted marks⟩ behind (by rintro ⟨⟩)
          simpa [Piece.text, Spelling.text] using written
        · exact .inr ⟨⟨[], .nil, gap, blank, marks, breach⟩, by simp [Tear.text, Tear.ending]⟩
      · have bare : isBare c = true := by simpa [isBare, quote] using visible
        have proper : IsBareWord (c :: rest.takeWhile isBare) :=
          ⟨by simp, by simpa using hash, List.forall_mem_cons.mpr ⟨bare, List.all_eq_true.mp List.all_takeWhile⟩⟩
        have ends : EndsWord (rest.dropWhile isBare) := by
          intro d first
          have stops := List.head?_dropWhile_not isBare rest
          rw [first] at stops
          exact stops
        have fewer := (List.dropWhile_sublist isBare (l := rest)).length_le
        have behind := shorter (rest.dropWhile isBare).length (by omega) _ rfl
        have written := laid_or_torn_cons ⟨gap, blank, .bare _ proper⟩ behind fun _ => ends
        simpa [Piece.text, Spelling.text] using written

end Writing

/-- The reader of words accepts just the lines that are laid out, and finds the words that were written, where they
were written; and it refuses just the lines that break off within a quoted word, for the reason that they do and where
they do. Every line is one or the other. -/
theorem tokenize_decides (line : List Char) :
    (∀ tokens, tokenize 1 line = .ok tokens ↔ ∃ layout : Layout, layout.text = line ∧ layout.tokens 1 = tokens) ∧
    (∀ complaint, tokenize 1 line = .error complaint ↔ ∃ tear : Tear, tear.text = line ∧ tear.complaint 1 = complaint) ∧
    ((¬∃ layout : Layout, layout.text = line) → ∃ column, tokenize 1 line = .error (column, .unterminated) ∨
      ∃ letter, tokenize 1 line = .error (column, .unknownEscape letter)) := by
  refine ⟨fun tokens => ⟨fun read => ?_, ?_⟩, fun complaint => ⟨fun failed => ?_, ?_⟩, fun unlaid => ?_⟩
  · rcases laid_or_torn line with ⟨layout, rfl⟩ | ⟨tear, rfl⟩
    · exact ⟨layout, rfl, Except.ok.inj ((tokenize_layout layout 1).symm.trans read)⟩
    · cases (tokenize_tear tear 1).symm.trans read
  · rintro ⟨layout, rfl, rfl⟩
    exact tokenize_layout layout 1
  · rcases laid_or_torn line with ⟨layout, rfl⟩ | ⟨tear, rfl⟩
    · cases (tokenize_layout layout 1).symm.trans failed
    · exact ⟨tear, rfl, Except.error.inj ((tokenize_tear tear 1).symm.trans failed)⟩
  · rintro ⟨tear, rfl, rfl⟩
    exact tokenize_tear tear 1
  · rcases laid_or_torn line with laid | ⟨tear, rfl⟩
    · exact absurd laid unlaid
    · have failed := tokenize_tear tear 1
      generalize tear.complaint 1 = complaint at failed
      obtain ⟨column, misspelling⟩ := complaint
      cases misspelling with
      | unterminated => exact ⟨column, .inl failed⟩
      | unknownEscape letter => exact ⟨column, .inr ⟨letter, failed⟩⟩

/-- A quote ends a bare word, a hash between quotes is text, and one that touches a quoted word begins a comment. -/
example : tokenize 1 "say\"a # \\\"b\"#c".toList = .ok [⟨1, .bare "say"⟩, ⟨4, .quoted "a # \"b"⟩] := by cbv

end Dialogue.Source
