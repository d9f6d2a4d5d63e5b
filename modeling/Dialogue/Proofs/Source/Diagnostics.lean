import Dialogue.Proofs.Source.Columns
import Dialogue.Proofs.Source.RoundTrip

/-!
What is said of a text that does not assemble. Lines are read in their order, so the error is about the first line that
does not fit: the lines in front of it make a program, and the lines behind it do not matter. Behind the last line
nothing can go wrong any more.
-/

namespace Dialogue

namespace Text

/-- The text up to the end of so many lines, or all of it if it has no more. -/
def firstLines : Nat → List Char → List Char
  | 0, _ => []
  | _ + 1, [] => []
  | count + 1, c :: rest => c :: firstLines (if c = '\n' then count else count + 1) rest

theorem firstLines_prefix (count : Nat) (text : List Char) : firstLines count text <+: text := by
  induction text generalizing count with
  | nil => cases count <;> exact List.prefix_rfl
  | cons c rest ih =>
    cases count with
    | zero => exact List.nil_prefix
    | succ count => exact (List.prefix_cons_inj c).mpr (ih _)

theorem head?_firstLines (count : Nat) (text : List Char) : (firstLines (count + 1) text).head? = text.head? := by
  cases text <;> rfl

theorem lines_firstLines (count : Nat) (text : List Char) : lines (firstLines count text) = (lines text).take count := by
  unfold lines
  induction text generalizing count with
  | nil => cases count <;> rfl
  | cons c rest ih =>
    cases count with
    | zero => rfl
    | succ count =>
      rw [firstLines]
      by_cases feed : c = '\n'
      · rw [if_pos feed, linesOf, if_pos feed, linesOf, if_pos feed, List.take_succ_cons, ih]
      · rw [if_neg feed, linesOf, if_neg feed, linesOf, if_neg feed, head?_firstLines, ih]
        split
        · rfl
        · cases linesOf '\n' '\r' rest with
          | nil => rw [List.take_nil, List.take_succ_cons, List.take_nil]
          | cons line others => rfl

end Text

namespace Source

namespace Draft

variable {draft next last : Draft} {front back lines : List (List Char)}

/-- No two nodes have the same name. -/
def Distinct (draft : Draft) : Prop := draft.names.Nodup

theorem Extends.distinct (grown : draft.Extends lines next) (distinct : draft.Distinct) : next.Distinct := by
  refine grown.kept distinct fun {before after _ _ _} apart read accepted => ?_
  show after.names.Nodup
  rcases accept_cases accepted with ⟨name, _, fresh, names, _⟩ | ⟨_, _, _, _, names, _⟩ | ⟨names, _⟩
  · rw [names]
    exact List.nodup_cons.mpr ⟨fresh, apart⟩
  · rwa [names]
  · rwa [names]

/-- The nodes of a draft that is made of lines can always be collected. -/
theorem Extends.finish (grown : Draft.empty.Extends lines draft) : ∃ program, draft.finish = .ok program := by
  have distinct : draft.Distinct := grown.distinct List.nodup_nil
  have apart : (draft.nodes.reverse.map Node.name).Nodup := by
    rw [List.map_reverse]
    exact List.nodup_reverse.mpr distinct
  obtain ⟨program, collected, _⟩ := Program.ofNodes_of_nodup draft.name draft.strings apart
  exact ⟨program, finish_eq_ok.mpr collected⟩

theorem Extends.split (grown : draft.Extends (front ++ back) last) :
    ∃ middle, draft.Extends front middle ∧ middle.Extends back last := by
  induction front generalizing draft with
  | nil => exact ⟨draft, .nil draft, grown⟩
  | cons line front ih =>
    cases grown with
    | cons added others =>
      obtain ⟨middle, start, rest⟩ := ih others
      exact ⟨middle, .cons added start, rest⟩

/-- Reading stops at the first line that does not fit, whatever is behind it. -/
theorem addLines_of_failed {middle : Draft} {line : List Char} {column : Nat} {defect : Defect}
    (grown : draft.Extends front middle) (failed : middle.addLine line = .error (column, defect)) (number : Nat)
    (back : List (List Char)) :
    draft.addLines number (front ++ line :: back) = .error ⟨number + front.length, column, defect⟩ := by
  induction grown generalizing number with
  | nil =>
    rw [List.nil_append, addLines, failed]
    rfl
  | cons added _ ih =>
    rw [List.cons_append, addLines, added]
    dsimp only
    rw [ih failed, List.length_cons, Nat.add_assoc, Nat.add_comm 1]

theorem exists_failed {number : Nat} {error : AssemblyError} (read : draft.addLines number lines = .error error) :
    ∃ front line back middle, lines = front ++ line :: back ∧ draft.Extends front middle ∧
      middle.addLine line = .error (error.column, error.defect) ∧ error.line = number + front.length := by
  induction lines generalizing number draft with
  | nil => cases read
  | cons line lines ih =>
    rw [addLines] at read
    cases added : draft.addLine line with
    | error place =>
      rw [added] at read
      cases read
      exact ⟨[], line, lines, draft, rfl, .nil draft, added, rfl⟩
    | ok next =>
      rw [added] at read
      obtain ⟨front, failed, back, middle, rfl, grown, failing, place⟩ := ih read
      refine ⟨line :: front, failed, back, middle, rfl, .cons added grown, failing, ?_⟩
      rw [place, List.length_cons]
      omega

end Draft

/-- The error points into the first line of the text that does not fit. What stands in front of that line assembles, as
do all texts of lines from there, and whatever stands behind it, the error is the same. -/
structure AssemblyError.PointsInto (error : AssemblyError) (source : String) : Prop where
  place : 1 ≤ error.line ∧ ∃ line, (Text.lines source.toList)[error.line - 1]? = some line ∧ 1 ≤ error.column ∧
    error.column ≤ line.length
  before : Text.firstLines (error.line - 1) source.toList <+: source.toList ∧
    ∃ program, assemble (String.ofList (Text.firstLines (error.line - 1) source.toList)) = .ok program
  fitting : ∀ other : String, Text.lines other.toList <+: (Text.lines source.toList).take (error.line - 1) →
    ∃ program, assemble other = .ok program
  alike : ∀ other : String,
    (Text.lines other.toList).take error.line = (Text.lines source.toList).take error.line →
      assemble other = .error error

section Assembly

variable {source : String} {error : AssemblyError}

/-- Only lines can be wrong. -/
theorem assemble_eq_error :
    assemble source = .error error ↔ Draft.empty.addLines 1 (Text.lines source.toList) = .error error := by
  unfold assemble
  cases added : Draft.empty.addLines 1 (Text.lines source.toList) with
  | error other =>
    constructor
    all_goals
      rintro ⟨⟩
      rfl
  | ok draft =>
    obtain ⟨program, finished⟩ := (Draft.addLines_eq_ok.mp added).finish
    simp only [finished]
    constructor <;> rintro ⟨⟩

theorem assemble_of_prefix {front : List (List Char)} {draft : Draft} (grown : Draft.empty.Extends front draft)
    (part : Text.lines source.toList <+: front) : ∃ program, assemble source = .ok program := by
  obtain ⟨back, rfl⟩ := part
  obtain ⟨middle, start, _⟩ := grown.split
  obtain ⟨program, finished⟩ := start.finish
  exact ⟨program, assemble_eq_ok.mpr ⟨middle, start, finished⟩⟩

theorem pointsInto_of_assemble (failed : assemble source = .error error) : error.PointsInto source := by
  obtain ⟨front, line, back, middle, rows, grown, failing, place⟩ := Draft.exists_failed (assemble_eq_error.mp failed)
  have number : error.line - 1 = front.length := by omega
  have before : (Text.lines source.toList).take (error.line - 1) = front := by rw [rows, number, List.take_left]
  have fitting : ∀ other : String, Text.lines other.toList <+: front → ∃ program, assemble other = .ok program :=
    fun other part => assemble_of_prefix grown part
  refine ⟨⟨by omega, line, ?_, ?_⟩, ⟨Text.firstLines_prefix _ _, fitting _ ?_⟩, before.symm ▸ fitting, fun other same => ?_⟩
  · rw [rows, number, List.getElem?_append_right (Nat.le_refl _), Nat.sub_self, List.getElem?_cons_zero]
  · obtain ⟨first, last⟩ := errsAt_addLine middle line error.column error.defect failing
    exact ⟨first, by omega⟩
  · have rest : Text.lines (String.ofList (Text.firstLines (error.line - 1) source.toList)).toList = front := by
      rw [String.toList_ofList, Text.lines_firstLines, before]
    exact rest.symm ▸ List.prefix_rfl
  · have upTo : (Text.lines other.toList).take error.line = front ++ [line] := by
      rw [same, rows, place, Nat.add_comm 1, List.take_length_add_append, List.take_succ_cons, List.take_zero]
    have others : Text.lines other.toList = front ++ line :: (Text.lines other.toList).drop error.line := calc
      _ = (Text.lines other.toList).take error.line ++ _ := (List.take_append_drop error.line _).symm
      _ = (front ++ [line]) ++ _ := by rw [upTo]
      _ = _ := List.append_assoc front [line] _
    rw [assemble_eq_error, others, Draft.addLines_of_failed grown failing, ← place]

end Assembly

/-- An error points into the first line that does not fit. Behind the last line nothing goes wrong any more, so that
every error has a place; and the nodes of a program that is assembled have names, which differ. -/
theorem assemble_points :
    (∀ source error, assemble source = .error error → error.PointsInto source) ∧
    (∀ lines draft, Draft.empty.addLines 1 lines = .ok draft → ∃ program, draft.finish = .ok program) ∧
    ∀ source program, assemble source = .ok program →
      (∀ node ∈ program.nodes, node.name ≠ "") ∧ (program.nodes.map Node.name).Nodup := by
  refine ⟨fun source error failed => pointsInto_of_assemble failed, fun lines draft added => ?_, ?_⟩
  · exact (Draft.addLines_eq_ok.mp added).finish
  · intro source program assembled
    exact ⟨(named_of_assemble assembled).1, program.names_nodup⟩

/-- A text with two lines that do not fit. -/
def misspelt : String := "node A:\r\n    Stop\n    RunCommand \"\\q\"\nnode A:\n"

/-- The name that returns in its last line is not seen, since the third line is wrong before. -/
theorem assemble_points_misspelt :
    assemble misspelt = .error ⟨3, 18, .misspelled (.unknownEscape 'q')⟩ ∧
      assemble "node A:\n    Stop\r\n    RunCommand \"\\q\"" = .error ⟨3, 18, .misspelled (.unknownEscape 'q')⟩ ∧
      (∃ program, assemble "node A:\r\n    Stop\n" = .ok program ∧ (∀ node ∈ program.nodes, node.name ≠ "") ∧
        (program.nodes.map Node.name).Nodup) ∧
      ∃ program, Draft.empty.finish = .ok program := by
  have failed : assemble misspelt = .error ⟨3, 18, .misspelled (.unknownEscape 'q')⟩ := by cbv
  have points := assemble_points.1 misspelt _ failed
  obtain ⟨program, assembled⟩ := points.fitting "node A:\r\n    Stop\n" (by decide +kernel)
  refine ⟨failed, points.alike _ (by decide +kernel), ⟨program, assembled, ?_⟩, ?_⟩
  · exact assemble_points.2.2 _ program assembled
  · exact assemble_points.2.1 [] .empty rfl

end Source

end Dialogue
