import Dialogue.Source.Listing
import Mathlib.Data.List.Forall2
import Mathlib.Data.List.TakeWhile

/-!
The words of a line are the words that were written into it. `Writes` says of one row of characters that it is one
word wherever a word may stand, and `Spells` says of a whole line which words it holds. The readers of words are told
by their branches first, and are not opened any more after that.
-/

namespace Dialogue

namespace Text

/-- A character that is escaped is meant by its letter, and any other ends neither a quoted text nor its line. -/
theorem escapeLetter?_cases (c : Char) :
    (∃ letter, escapeLetter? c = some letter ∧ unescapeLetter? letter = some c ∧ letter ≠ '\n' ∧ letter ≠ '\r') ∨
    (escapeLetter? c = none ∧ c ≠ '"' ∧ c ≠ '\\' ∧ c ≠ '\n' ∧ c ≠ '\r') := by
  by_cases quote : c = '"'
  · exact .inl ⟨'"', by rw [quote]; decide⟩
  by_cases backslash : c = '\\'
  · exact .inl ⟨'\\', by rw [backslash]; decide⟩
  by_cases feed : c = '\n'
  · exact .inl ⟨'n', by rw [feed]; decide⟩
  by_cases tab : c = '\t'
  · exact .inl ⟨'t', by rw [tab]; decide⟩
  by_cases carriage : c = '\r'
  · exact .inl ⟨'r', by rw [carriage]; decide⟩
  · exact .inr ⟨by simp [escapeLetter?, quote, backslash, feed, tab, carriage], quote, backslash, feed, carriage⟩

end Text

namespace Source

section Branches

theorem readQuoted_closed (opening column : Nat) (rest : List Char) :
    readQuoted opening column ('"' :: rest) = .ok ([], rest) := by
  rw [readQuoted.eq_def]
  exact if_pos rfl

theorem readQuoted_escaped {letter meant : Char} (known : Text.unescapeLetter? letter = some meant)
    (opening column : Nat) (behind : List Char) :
    readQuoted opening column ('\\' :: letter :: behind) =
      (readQuoted opening (column + 2) behind).map (prepend meant) := by
  rw [readQuoted, if_neg (by decide), if_pos rfl, known]

theorem readQuoted_unknown {letter : Char} (unknown : Text.unescapeLetter? letter = none) (opening column : Nat)
    (behind : List Char) :
    readQuoted opening column ('\\' :: letter :: behind) = .error (column + 1, .unknownEscape letter) := by
  rw [readQuoted, if_neg (by decide), if_pos rfl, unknown]

theorem readQuoted_plain {c : Char} (noQuote : c ≠ '"') (noEscape : c ≠ '\\') (opening column : Nat)
    (rest : List Char) :
    readQuoted opening column (c :: rest) = (readQuoted opening (column + 1) rest).map (prepend c) := by
  rw [readQuoted.eq_def]
  dsimp only
  rw [if_neg noQuote, if_neg noEscape]

theorem tokenize_blank {c : Char} (blank : Text.isBlank c = true) (column : Nat) (rest : List Char) :
    tokenize column (c :: rest) = tokenize (column + 1) rest := by
  rw [tokenize, if_pos blank]

/-- Blanks in front of a word only move it to a later column. -/
theorem tokenize_gap {gap : List Char} (blank : ∀ c ∈ gap, Text.isBlank c = true) (column : Nat) (rest : List Char) :
    tokenize column (gap ++ rest) = tokenize (column + gap.length) rest := by
  induction gap generalizing column with
  | nil => rfl
  | cons c gap ih =>
    obtain ⟨first, others⟩ := List.forall_mem_cons.mp blank
    rw [List.cons_append, tokenize_blank first, ih others, List.length_cons, Nat.add_assoc, Nat.add_comm 1]

theorem tokenize_comment (column : Nat) (rest : List Char) : tokenize column ('#' :: rest) = .ok [] := by
  rw [tokenize, if_neg (by decide), if_pos rfl]

theorem tokenize_misquoted {column : Nat} {rest : List Char} {misspelling : Nat × Misspelling}
    (read : readQuoted column (column + 1) rest = .error misspelling) :
    tokenize column ('"' :: rest) = .error misspelling := by
  rw [tokenize, if_neg (by decide), if_neg (by decide), if_pos rfl]
  split
  next other found =>
    cases read.symm.trans found
    rfl
  next found => cases read.symm.trans found

theorem tokenize_quoted {column : Nat} {rest text after : List Char}
    (read : readQuoted column (column + 1) rest = .ok (text, after)) :
    tokenize column ('"' :: rest) =
      (tokenize (column + (('"' :: rest).length - after.length)) after).map
        (⟨column, .quoted (String.ofList text)⟩ :: ·) := by
  rw [tokenize, if_neg (by decide), if_neg (by decide), if_pos rfl]
  split
  next found => cases read.symm.trans found
  next inner behind found =>
    cases read.symm.trans found
    rfl

theorem tokenize_bare {c : Char} (visible : ¬Text.isBlank c = true) (noHash : c ≠ '#') (noQuote : c ≠ '"')
    (column : Nat) (rest : List Char) :
    tokenize column (c :: rest) =
      (tokenize (column + 1 + (rest.takeWhile isBare).length) (rest.dropWhile isBare)).map
        (⟨column, .bare (String.ofList (c :: rest.takeWhile isBare))⟩ :: ·) := by
  rw [tokenize, if_neg visible, if_neg noHash, if_neg noQuote]

end Branches

/-- What stands between quotes is read as the text that was quoted. -/
theorem readQuoted_escape (opening column : Nat) (text rest : List Char) :
    readQuoted opening column (text.flatMap Text.escape ++ '"' :: rest) = .ok (text, rest) := by
  induction text generalizing column with
  | nil => rw [List.flatMap_nil, List.nil_append, readQuoted_closed]
  | cons c text ih =>
    rw [List.flatMap_cons, List.append_assoc]
    unfold Text.escape
    rcases Text.escapeLetter?_cases c with ⟨letter, escaped, meant, _⟩ | ⟨plain, quote, backslash, _⟩
    · rw [escaped]
      show readQuoted opening column ('\\' :: letter :: (text.flatMap Text.escape ++ '"' :: rest)) = _
      rw [readQuoted_escaped meant, ih]
      rfl
    · rw [plain]
      show readQuoted opening column (c :: (text.flatMap Text.escape ++ '"' :: rest)) = _
      rw [readQuoted_plain quote backslash, ih]
      rfl

/-- The line holds these words, whichever column it starts in. -/
def Spells (line : List Char) (words : List Word) : Prop :=
  ∀ column, ∃ tokens, tokenize column line = .ok tokens ∧ tokens.map Token.word = words

def EndsWord (rest : List Char) : Prop := ∀ c ∈ rest.head?, isBare c = false

/-- The characters are this word, whatever words follow them. -/
def Writes (characters : List Char) (word : Word) : Prop :=
  ∀ rest words, EndsWord rest → Spells rest words → Spells (characters ++ rest) (word :: words)

section Line

variable {rest : List Char} {words : List Word}

theorem spells_nil : Spells [] [] := fun column => ⟨[], by rw [tokenize], rfl⟩

theorem Spells.blank {c : Char} (blank : Text.isBlank c = true) (behind : Spells rest words) :
    Spells (c :: rest) words := by
  intro column
  rw [tokenize_blank blank]
  exact behind (column + 1)

theorem Spells.blanks (count : Nat) (behind : Spells rest words) :
    Spells (List.replicate count ' ' ++ rest) words := by
  intro column
  rw [tokenize_gap fun c member => by rw [List.eq_of_mem_replicate member]; decide]
  exact behind (column + _)

/-- A hash hides what is behind it. -/
theorem spells_comment (rest : List Char) : Spells ('#' :: rest) [] :=
  fun column => ⟨[], tokenize_comment column rest, rfl⟩

theorem endsWord_nil : EndsWord [] := by
  intro c member
  cases member

theorem endsWord_cons {c : Char} (other : isBare c = false) : EndsWord (c :: rest) := by
  intro first member
  cases member
  exact other

end Line

section Words

/-- Characters that may stand bare. -/
def IsBareWord (text : List Char) : Prop := text ≠ [] ∧ text.head? ≠ some '#' ∧ ∀ c ∈ text, isBare c = true

/-- The same as a check, for texts that are known. -/
theorem isBareWord_of_check {text : List Char}
    (checked : (!text.isEmpty && text.head? != some '#' && text.all isBare) = true) : IsBareWord text := by
  simpa [IsBareWord, and_assoc] using checked

/-- A bare word takes just its own characters, since the next one, if there is one, is not part of a word. -/
theorem tokenize_bareWord {text rest : List Char} (bare : IsBareWord text) (ends : EndsWord rest) (column : Nat) :
    tokenize column (text ++ rest) =
      (tokenize (column + text.length) rest).map (⟨column, .bare (String.ofList text)⟩ :: ·) := by
  obtain ⟨some, hash, all⟩ := bare
  cases text with
  | nil => exact absurd rfl some
  | cons c others =>
    have allowed := all c List.mem_cons_self
    have behind : ∀ d ∈ others, isBare d = true := fun d member => all d (List.mem_cons_of_mem c member)
    have taken : (others ++ rest).takeWhile isBare = others := by
      rw [List.takeWhile_append_of_pos behind]
      cases rest with
      | nil => simp
      | cons d after => rw [List.takeWhile_cons_of_neg (by simp [ends d rfl]), List.append_nil]
    have dropped : (others ++ rest).dropWhile isBare = rest := by
      rw [List.dropWhile_append_of_pos behind]
      cases rest with
      | nil => rfl
      | cons d after => rw [List.dropWhile_cons_of_neg (by simp [ends d rfl])]
    unfold isBare at allowed
    rw [Bool.and_eq_true, Bool.not_eq_true', bne_iff_ne] at allowed
    have noHash : c ≠ '#' := fun same => hash (congrArg Option.some same)
    rw [List.cons_append, tokenize_bare (by simp [allowed.1]) noHash allowed.2, taken, dropped, List.length_cons,
      Nat.add_right_comm, Nat.add_assoc]

theorem writes_bare {text : List Char} (bare : IsBareWord text) : Writes text (.bare (String.ofList text)) := by
  intro rest words ends spelled column
  obtain ⟨tokens, read, same⟩ := spelled (column + text.length)
  rw [tokenize_bareWord bare ends, read]
  exact ⟨⟨column, .bare (String.ofList text)⟩ :: tokens, rfl, congrArg (_ :: ·) same⟩

/-- A quoted word ends by itself. -/
theorem spells_quote (text : String) {rest : List Char} {words : List Word} (behind : Spells rest words) :
    Spells (Text.quote text.toList ++ rest) (.quoted text :: words) := by
  intro column
  have quoted : Text.quote text.toList ++ rest = '"' :: (text.toList.flatMap Text.escape ++ '"' :: rest) := by
    simp [Text.quote]
  rw [quoted, tokenize_quoted (readQuoted_escape column (column + 1) text.toList rest), String.ofList_toList]
  obtain ⟨tokens, read, same⟩ :=
    behind (column + (('"' :: (text.toList.flatMap Text.escape ++ '"' :: rest)).length - rest.length))
  rw [read]
  exact ⟨⟨column, .quoted text⟩ :: tokens, rfl, congrArg (_ :: ·) same⟩

theorem writes_quote (text : String) : Writes (Text.quote text.toList) (.quoted text) :=
  fun _ _ _ behind => spells_quote text behind

def nameWord (name : String) : Word := if isPlainName name.toList then .bare name else .quoted name

@[simp]
theorem text_nameWord (name : String) : (nameWord name).text = name := by
  unfold nameWord
  split <;> rfl

theorem isPlainName_iff {text : List Char} :
    isPlainName text = true ↔ IsBareWord text ∧ text.getLast? ≠ some ':' ∧ text ≠ ['-'] := by
  simp only [isPlainName, IsBareWord, Bool.and_eq_true, Bool.not_eq_true', List.isEmpty_eq_false_iff, bne_iff_ne,
    List.all_eq_true]
  tauto

theorem writes_name (name : String) : Writes (writeName name) (nameWord name) := by
  unfold writeName nameWord
  split
  next plain =>
    have bare := writes_bare (isPlainName_iff.mp plain).1
    rwa [String.ofList_toList] at bare
  next => exact writes_quote name

end Words

section Joined

theorem joinWords_cons (word : List Char) (others : List (List Char)) :
    joinWords (word :: others) = word ++ others.flatMap (' ' :: ·) := by
  induction others generalizing word with
  | nil => simp [joinWords, List.intercalate]
  | cons next others ih =>
    have apart : joinWords (word :: next :: others) = word ++ ' ' :: joinWords (next :: others) := by
      simp [joinWords, List.intercalate]
    rw [apart, ih, List.flatMap_cons, List.cons_append]

theorem endsWord_flatMap (others : List (List Char)) {rest : List Char} (ends : EndsWord rest) :
    EndsWord (others.flatMap (' ' :: ·) ++ rest) := by
  cases others with
  | nil => exact ends
  | cons => exact endsWord_cons (by decide)

/-- Words with a space between them are those words. -/
theorem spells_joinWords {rows : List (List Char)} {row : List Char} {word : Word} {found words : List Word}
    {rest : List Char} (first : Writes row word) (written : List.Forall₂ Writes rows found) (ends : EndsWord rest)
    (behind : Spells rest words) : Spells (joinWords (row :: rows) ++ rest) (word :: found ++ words) := by
  rw [joinWords_cons, List.append_assoc]
  apply first _ _ (endsWord_flatMap rows ends)
  clear first
  induction written with
  | nil => exact behind
  | cons write _ ih =>
    rw [List.flatMap_cons, List.cons_append, List.cons_append, List.append_assoc]
    exact Spells.blank (by decide) (write _ _ (endsWord_flatMap _ ends) ih)

end Joined

end Source

end Dialogue
