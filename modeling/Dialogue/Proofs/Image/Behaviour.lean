import Mathlib.Data.List.Forall2
import Dialogue.Proofs.Image.RoundTrip
import Dialogue.Proofs.Machine.Conversation

/-!
What is loaded behaves like what was saved. Saving moves string indices beyond `2 ^ 53` only, and none of them into or
out of a string table that has no more entries than that. So the check says the same of both programs, and a host that
plays them hears the same, except that a text that is missing may be missing under another number.
-/

namespace Dialogue

/-- The two indices are the same, or they differ beyond `2 ^ 53`, where both lead out of the string table. -/
def IndexMatches (strings : List String) (index stored : UInt64) : Prop :=
  stored = index ∨ 2 ^ 53 < index.toNat ∧ strings.length ≤ index.toNat ∧ strings.length ≤ stored.toNat

structure Choice.Matches (strings : List String) (first second : Choice) : Prop where
  text : Option.Rel (IndexMatches strings) first.text second.text
  destination : second.destination = first.destination

structure Reply.Matches (strings : List String) (first second : Reply) : Prop where
  events : second.events = first.events
  result : second.result = first.result ∨ ∃ index stored, IndexMatches strings index stored ∧
    first.result = .error (.missingString index) ∧ second.result = .error (.missingString stored)

/-- The two conversations are the same, up to the numbers of missing texts. -/
structure Visit.Matches {σ : Type} (strings : List String) (first second : Visit σ) : Prop where
  node : second.machine.node = first.machine.node
  position : second.machine.position = first.machine.position
  stack : second.machine.stack = first.machine.stack
  pending : List.Forall₂ (Choice.Matches strings) first.machine.pending second.machine.pending
  status : second.machine.status = first.machine.status
  steps : second.machine.steps = first.machine.steps
  ticket : second.machine.ticket = first.machine.ticket
  store : second.store = first.store
  heard : List.Forall₂ (Reply.Matches strings) first.heard second.heard

/-- Where the check has found an error. -/
def CheckError.place (error : CheckError) : String × Nat := (error.node, error.position)

/-- One program does what the other does. -/
structure Behaves (program loaded : Program) : Prop where
  /-- The check accepts both or refuses both, at the same place. -/
  checked : ∀ signature? : Signatures,
    (loaded.check signature?).mapError CheckError.place = (program.check signature?).mapError CheckError.place
  /-- Whatever its host says to it, a new machine on one goes the way of a new machine on the other. -/
  played : ∀ (σ : Type) [VariableStore σ] (store : σ) (function? : String → Option Function) (limits : Limits)
    (turns : List Turn), ((Visit.new store).play ⟨program, function?, limits⟩ turns).Matches program.strings
      ((Visit.new store).play ⟨loaded, function?, limits⟩ turns)

namespace Image

section Stored

variable {strings : List String} (short : strings.length ≤ 2 ^ 53)

include short

theorem indexMatches_storedIndex (index : UInt64) : IndexMatches strings index (storedIndex index) := by
  rcases Nat.lt_or_ge (2 ^ 53) index.toNat with large | small
  · have moved := Number.le_nearestWhole large.le
    rw [IndexMatches, toNat_storedIndex]
    omega
  · have kept := Number.nearestWhole_of_le small
    have bound := index.toNat_lt
    exact .inl (storedIndex_eq_self.mpr (.inl ((Number.exists_toNat?_iff bound).mpr kept)))

theorem storedIndex_inTable (index : UInt64) :
    strings.length ≤ (storedIndex index).toNat ↔ strings.length ≤ index.toNat := by
  rcases indexMatches_storedIndex short index with same | ⟨_, beyond, stored⟩
  · rw [same]
  · exact iff_of_true stored beyond

theorem faithful_storedIndex : (Relabeling.mk storedIndex 0).Faithful strings := by
  intro index
  change strings[(storedIndex index).toNat]? = _
  rcases indexMatches_storedIndex short index with same | ⟨_, beyond, stored⟩
  · rw [same]
  · rw [List.getElem?_eq_none beyond, List.getElem?_eq_none stored]

theorem choice_matches (choice : Choice) : choice.Matches strings (choice.relabel ⟨storedIndex, 0⟩) := by
  obtain ⟨text, destination⟩ := choice
  cases text with
  | none => exact ⟨.none, rfl⟩
  | some index => exact ⟨.some (indexMatches_storedIndex short index), rfl⟩

theorem reply_matches (reply : Reply) : reply.Matches strings (reply.relabel ⟨storedIndex, 0⟩) := by
  obtain ⟨events, result⟩ := reply
  constructor
  · change events.map (Event.relabel ⟨storedIndex, 0⟩) = events
    rw [List.map_congr_left fun event _ => event.relabel_unshifted rfl, List.map_id']
  · cases result with
    | ok outcome => exact .inl rfl
    | error fault =>
      cases fault with
      | missingString index => exact .inr ⟨index, _, indexMatches_storedIndex short index, rfl, rfl⟩
      | _ => exact .inl rfl

theorem matches_of_alike {σ : Type} {first second : Visit σ} (alike : first.Alike ⟨storedIndex, 0⟩ Eq second) :
    first.Matches strings second := by
  obtain ⟨machine, store, heard⟩ := second
  obtain ⟨rfl, rfl, rfl⟩ := alike
  refine ⟨rfl, rfl, rfl, ?_, rfl, rfl, rfl, rfl, ?_⟩
  · exact List.forall₂_map_right_iff.mpr (List.forall₂_same.mpr fun choice _ => choice_matches short choice)
  · exact List.forall₂_map_right_iff.mpr (List.forall₂_same.mpr fun reply _ => reply_matches short reply)

end Stored

/-- A program behaves like its own with the indices that are stored for it. -/
theorem behaves_storedIndex (program : Program) (short : program.strings.length ≤ 2 ^ 53) :
    Behaves program (program.mapInstructions (.mapIndex storedIndex)) where
  checked := by
    intro signature?
    rw [Program.check_mapIndex signature? (storedIndex_inTable short)]
    cases program.check signature? <;> rfl
  played := by
    intro σ _ store function? limits turns
    have start : (Visit.new store).Alike ⟨storedIndex, 0⟩ Eq (Visit.new store) := ⟨rfl, rfl, rfl⟩
    have faithful : (Relabeling.mk storedIndex 0).Faithful program.strings := faithful_storedIndex short
    have played : Visit.Alike ⟨storedIndex, 0⟩ Eq ((Visit.new store).play ⟨program, function?, limits⟩ turns) _ :=
      Visit.play_alike faithful keptByWrites_eq (fun same => congrArg _ same) start turns
    have said : turns.map (Turn.relabel ⟨storedIndex, 0⟩) = turns := by
      rw [List.map_congr_left fun turn _ => turn.relabel_unshifted rfl, List.map_id']
    rw [said] at played
    exact matches_of_alike short played

/-- Whatever is saved comes back, and does what it did. -/
theorem load_save_behaves (program : Program) (fits : (RawProgram.ofProgram program).Fits)
    (short : program.strings.length ≤ 2 ^ 53) :
    ∃ loaded, load (save program) = .ok loaded ∧ Behaves program loaded := by
  have loaded := load_save_append program [] fits
  rw [List.append_nil] at loaded
  exact ⟨_, loaded, behaves_storedIndex program short⟩

/-- What the host of a program hears last when it steps into the pier. -/
def lastAtPier (program : Program) : Option (Except Fault Outcome) :=
  ((Visit.new Storage.empty).play ⟨program, fun _ => none, .standard⟩
    [⟨0, .selectNode "Pier"⟩, ⟨0, .step⟩]).heard.getLast?.map Reply.result

/-- The ferry misses the same text as before, under the number as which its index comes back. -/
theorem load_save_behaves_ferry : (RawProgram.ofProgram ferry).Fits ∧ ferry.strings.length ≤ 2 ^ 53 ∧
    ∃ loaded, load (save ferry) = .ok loaded ∧ Behaves ferry loaded ∧
      lastAtPier ferry = some (.error (.missingString 9007199254740993)) ∧
      lastAtPier loaded = some (.error (.missingString 9007199254740992)) := by
  have fits : (RawProgram.ofProgram ferry).Fits := by decide +kernel
  have short : ferry.strings.length ≤ 2 ^ 53 := by decide
  obtain ⟨loaded, read, behaves⟩ := load_save_behaves ferry fits short
  have known := load_save_append ferry [] fits
  rw [List.append_nil, read] at known
  cases known
  exact ⟨fits, short, _, read, behaves, by decide +kernel, by decide +kernel⟩

end Image

end Dialogue
