import Mathlib.Logic.Function.Basic
import Dialogue.Proofs.Machine.Conversation

/-!
Machines that share a store. They meet in its variables and nowhere else: as long as no machine reads a variable that
another one has stored, each of them goes the way that it would go alone.
-/

namespace Dialogue

variable {ι σ : Type}

/-- Machines with one store, what each host has heard so far, and the instructions that were executed, the latest
first. -/
structure Ensemble (ι σ : Type) where
  machine : ι → Machine
  store : σ
  heard : ι → List Reply
  executed : List (ι × Instruction)

namespace Ensemble

def new (machine : ι → Machine) (store : σ) : Ensemble ι σ := ⟨machine, store, fun _ => [], []⟩

/-- What the ensemble is to one of its hosts. -/
def view (ensemble : Ensemble ι σ) (who : ι) : Visit σ := ⟨ensemble.machine who, ensemble.store, ensemble.heard who⟩

end Ensemble

/-- The instructions that are executed in a turn, the latest first. -/
def Visit.executes [VariableStore σ] (stage : Stage) (visit : Visit σ) (turn : Turn) : List Instruction :=
  (visit.machine.momentsOf visit.store stage turn.fuel turn.call).filterMap Moment.executed?

namespace Ensemble

section Play

variable [DecidableEq ι] [VariableStore σ] (stages : ι → Stage)

/-- One of the machines answers a call. -/
def take (ensemble : Ensemble ι σ) (turn : ι × Turn) : Ensemble ι σ :=
  let visit := (ensemble.view turn.1).take (stages turn.1) turn.2
  { machine := Function.update ensemble.machine turn.1 visit.machine
    store := visit.store
    heard := Function.update ensemble.heard turn.1 visit.heard
    executed := ((ensemble.view turn.1).executes (stages turn.1) turn.2).map (turn.1, ·) ++ ensemble.executed }

def play (ensemble : Ensemble ι σ) (turns : List (ι × Turn)) : Ensemble ι σ := turns.foldl (take stages) ensemble

theorem view_take_self (ensemble : Ensemble ι σ) (who : ι) (turn : Turn) :
    (ensemble.take stages (who, turn)).view who = (ensemble.view who).take (stages who) turn := by
  simp [view, take]

theorem view_take_other (ensemble : Ensemble ι σ) {who other : ι} (differs : who ≠ other) (turn : Turn) :
    (ensemble.take stages (other, turn)).view who =
      { ensemble.view who with store := ((ensemble.view other).take (stages other) turn).store } := by
  simp [view, take, differs]

end Play

/-- No machine has read a variable that another one had stored before. -/
def Undisturbed (executed : List (ι × Instruction)) : Prop :=
  executed.Pairwise fun later earlier => ∀ name,
    later.2 = .pushVariable name → earlier.2 = .storeVariable name → later.1 = earlier.1

/-- The turns of one of the hosts. -/
def own [DecidableEq ι] (who : ι) (turns : List (ι × Turn)) : List Turn :=
  (turns.filter fun turn => turn.1 = who).map Prod.snd

end Ensemble

section Leaves

variable [VariableStore σ] [SeparateVariables σ] {name : String}

theorem Machine.step_leaves (machine : Machine) (store : σ) (stage : Stage)
    (unstored : (⟨machine, store, stage, .step⟩ : Moment σ).executed? ≠ some (.storeVariable name)) :
    VariableStore.read (machine.step store stage).store name = VariableStore.read store name := by
  rw [Moment.executed?_step] at unstored
  have steps := machine.step_steps store stage
  generalize machine.step store stage = response at steps unstored
  cases steps with
  | waits | nowhere | finishes | limited => rfl
  | @executes node instruction response free current here allowed executed =>
    have stands : Moment.instruction? (⟨machine, store, stage, .step⟩ : Moment σ) = some instruction :=
      Option.bind_eq_some_iff.mpr ⟨node, current, here⟩
    rw [Response.settle_isOk, stands] at unstored
    have kept : (response.settle stage.program).store = response.store := by
      obtain ⟨position, status, told, settled, _⟩ := response.settle_eq stage.program
      rw [settled]
    rw [kept]
    cases executed with
    | @stored written value rest top =>
      have differs : name ≠ written := fun same => unstored (same ▸ rfl)
      exact SeparateVariables.leaves store value differs
    | _ => rfl

theorem Machine.run_leaves (machine : Machine) (store : σ) (stage : Stage) (fuel : Nat)
    (unstored : ∀ moment ∈ machine.stepsOf store stage fuel, moment.executed? ≠ some (.storeVariable name)) :
    VariableStore.read (machine.run store stage fuel).store name = VariableStore.read store name := by
  induction fuel generalizing machine store with
  | zero => rfl
  | succ fuel ih =>
    rcases machine.run_cases store stage fuel with ⟨result, ran, steps, _⟩ | ⟨ran, steps⟩
    · rw [steps] at unstored
      rw [ran]
      exact machine.step_leaves store stage (unstored _ (List.mem_singleton_self _))
    · rw [steps] at unstored
      rw [ran]
      calc
        _ = VariableStore.read (machine.step store stage).store name :=
          ih _ _ fun moment member => unstored moment (List.mem_append_left _ member)
        _ = _ := machine.step_leaves store stage (unstored _ (List.mem_append_right _ (List.mem_singleton_self _)))

/-- A turn changes no variable but those that it stores. -/
theorem Visit.take_leaves (visit : Visit σ) (stage : Stage) (turn : Turn)
    (unstored : .storeVariable name ∉ visit.executes stage turn) :
    VariableStore.read (visit.take stage turn).store name = VariableStore.read visit.store name := by
  obtain ⟨fuel, call⟩ := turn
  have never : ∀ moment ∈ visit.machine.momentsOf visit.store stage fuel call,
      moment.executed? ≠ some (.storeVariable name) := fun moment member executed =>
    unstored (List.mem_filterMap.mpr ⟨moment, member, executed⟩)
  cases call with
  | step => exact visit.machine.step_leaves visit.store stage (never _ (List.mem_singleton_self _))
  | run => exact visit.machine.run_leaves visit.store stage fuel never
  | selectOption handle index =>
    unfold Visit.take
    cases selected : visit.machine.selectOption handle index with
    | error rejection => rw [Machine.answer_rejected selected]
    | ok chosen => rw [Machine.answer_chosen selected]
  | selectNode | stop => rfl

end Leaves

namespace Ensemble

/-- Some other machine has stored the variable. -/
def StoredByOthers (executed : List (ι × Instruction)) (who : ι) (name : String) : Prop :=
  ∃ other, other ≠ who ∧ (other, .storeVariable name) ∈ executed

/-- The stores agree on all variables that no other machine has stored. -/
def AgreesFor [VariableStore σ] (executed : List (ι × Instruction)) (who : ι) (store other : σ) : Prop :=
  ∀ name, ¬StoredByOthers executed who name → VariableStore.read store name = VariableStore.read other name

theorem AgreesFor.append [VariableStore σ] {executed : List (ι × Instruction)} {who : ι} {store other : σ}
    (agrees : AgreesFor executed who store other) (later : List (ι × Instruction)) :
    AgreesFor (later ++ executed) who store other := by
  intro name own
  apply agrees name
  rintro ⟨other, differs, member⟩
  exact own ⟨other, differs, List.mem_append_right later member⟩

section Invariant

variable [DecidableEq ι] [VariableStore σ] {stages : ι → Stage} {ensemble : Ensemble ι σ} {who : ι} {alone : Visit σ}

/-- What a machine reads in its turn is the same in every store that agrees for it. -/
theorem readsAlike_of_undisturbed {turn : Turn}
    (undisturbed : Undisturbed (ensemble.take stages (who, turn)).executed) :
    ReadsAlike (AgreesFor ensemble.executed who)
      ((ensemble.machine who).momentsOf ensemble.store (stages who) turn.fuel turn.call) := by
  intro moment member name read other agrees
  apply agrees name
  rintro ⟨writer, differs, stored⟩
  have reading : (who, .pushVariable name) ∈ ((ensemble.view who).executes (stages who) turn).map (who, ·) :=
    List.mem_map_of_mem (List.mem_filterMap.mpr ⟨moment, member, read⟩)
  have same := (List.pairwise_append.mp undisturbed).2.2 _ reading _ stored name rfl rfl
  exact differs same.symm

theorem executed_suffix (turns : List (ι × Turn)) (ensemble : Ensemble ι σ) :
    ensemble.executed <:+ (ensemble.play stages turns).executed := by
  induction turns generalizing ensemble with
  | nil => exact List.suffix_refl _
  | cons turn rest ih => exact (List.suffix_append _ _).trans (ih (ensemble.take stages turn))

variable [SeparateVariables σ]

theorem take_alone (alike : (ensemble.view who).Alike (.shift 0) (AgreesFor ensemble.executed who) alone)
    {turn : ι × Turn} (undisturbed : Undisturbed (ensemble.take stages turn).executed) :
    ((ensemble.take stages turn).view who).Alike (.shift 0) (AgreesFor (ensemble.take stages turn).executed who)
      (alone.play (stages who) (own who [turn])) := by
  obtain ⟨actor, turn⟩ := turn
  by_cases acts : actor = who
  · subst acts
    have taken : ((ensemble.view actor).take (stages actor) turn).Alike (.shift 0) (AgreesFor ensemble.executed actor)
        (alone.take ((stages actor).relabel (.shift 0)) (turn.relabel (.shift 0))) :=
      Visit.take_alike (Relabeling.faithful_shift 0 _) (keptByWrites_agree _) alike
        (readsAlike_of_undisturbed undisturbed)
    rw [Stage.relabel_shift, Turn.relabel_shift_zero] at taken
    have mine : own actor [(actor, turn)] = [turn] := by simp [own]
    rw [view_take_self, mine]
    exact taken.mono fun agrees => agrees.append _
  · have others : own who [(actor, turn)] = [] := by simp [own, acts]
    rw [view_take_other stages ensemble (Ne.symm acts), others]
    refine ⟨alike.machine, fun name untouched => ?_, alike.heard⟩
    have unstored : .storeVariable name ∉ (ensemble.view actor).executes (stages actor) turn := fun member =>
      untouched ⟨actor, acts, List.mem_append_left _ (List.mem_map_of_mem member)⟩
    calc
      _ = VariableStore.read ensemble.store name := Visit.take_leaves _ _ turn unstored
      _ = VariableStore.read alone.store name := alike.store name fun ⟨other, differs, member⟩ =>
        untouched ⟨other, differs, List.mem_append_right _ member⟩

theorem play_alone (alike : (ensemble.view who).Alike (.shift 0) (AgreesFor ensemble.executed who) alone)
    {turns : List (ι × Turn)} (undisturbed : Undisturbed (ensemble.play stages turns).executed) :
    ((ensemble.play stages turns).view who).Alike (.shift 0) (AgreesFor (ensemble.play stages turns).executed who)
      (alone.play (stages who) (own who turns)) := by
  induction turns generalizing ensemble alone with
  | nil => exact alike
  | cons turn rest ih =>
    have before : Undisturbed (ensemble.take stages turn).executed :=
      undisturbed.sublist (executed_suffix rest _).sublist
    have split : own who (turn :: rest) = own who [turn] ++ own who rest := by
      unfold own
      rw [← List.map_append, ← List.filter_append, List.singleton_append]
    rw [split, Visit.play_append]
    exact ih (take_alone alike before) undisturbed

end Invariant

/-- Machines that share a store do not disturb each other unless one reads what another has stored. After every one of
the calls that are made on them, in whatever order, each machine and all that its host has heard are as if only its own
calls had been made. -/
theorem play_undisturbed [DecidableEq ι] [VariableStore σ] [SeparateVariables σ] (stages : ι → Stage)
    (machine : ι → Machine) (store : σ) (turns : List (ι × Turn))
    (undisturbed : Undisturbed ((new machine store).play stages turns).executed) (earlier : List (ι × Turn))
    (before : earlier <+: turns) (who : ι) :
    ((new machine store).play stages earlier).machine who =
        ((Visit.mk (machine who) store []).play (stages who) (own who earlier)).machine ∧
      ((new machine store).play stages earlier).heard who =
        ((Visit.mk (machine who) store []).play (stages who) (own who earlier)).heard := by
  obtain ⟨later, rfl⟩ := before
  have start : ((new machine store).view who).Alike (.shift 0) (AgreesFor (new machine store).executed who)
      ⟨machine who, store, []⟩ := ⟨(Machine.relabel_shift 0 _).symm, fun _ _ => rfl, rfl⟩
  have sofar : Undisturbed ((new machine store).play stages earlier).executed := by
    unfold play at undisturbed
    rw [List.foldl_append] at undisturbed
    exact undisturbed.sublist (executed_suffix later _).sublist
  exact (play_alone start sofar).eq

section Tally

/-- Two nodes, each of which stores a variable of its own and reads it again. -/
def tally : Program where
  name := "tally"
  strings := []
  nodes := [⟨"North", [], [.pushNumber ⟨0x3ff0000000000000⟩, .storeVariable "north", .pushVariable "north", .stop]⟩,
    ⟨"South", [], [.pushNumber ⟨0x4000000000000000⟩, .storeVariable "south", .pushVariable "south", .stop]⟩]
  ascending := .cons (by simp only [List.forall_mem_cons]; decide) (List.pairwise_singleton _ _)

def tallyStage : Stage := ⟨tally, fun _ => none, .standard⟩

/-- The host of the north is interrupted by that of the south. -/
def tallyTurns : List (Bool × Turn) :=
  [(true, ⟨0, .selectNode "North"⟩), (false, ⟨0, .selectNode "South"⟩), (true, ⟨0, .step⟩), (true, ⟨0, .step⟩),
    (false, ⟨9, .run⟩), (true, ⟨9, .run⟩)]

def tallyEnsemble : Ensemble Bool Storage :=
  (new (fun _ => .initial) .empty).play (fun _ => tallyStage) tallyTurns

/-- The two machines share their store, and neither notices the other. -/
theorem play_undisturbed_tally :
    Undisturbed tallyEnsemble.executed ∧ (true, .storeVariable "north") ∈ tallyEnsemble.executed ∧
      (false, .storeVariable "south") ∈ tallyEnsemble.executed ∧
      ∀ who, tallyEnsemble.machine who =
          ((Visit.mk .initial Storage.empty []).play tallyStage (own who tallyTurns)).machine ∧
        tallyEnsemble.heard who =
          ((Visit.mk .initial Storage.empty []).play tallyStage (own who tallyTurns)).heard := by
  have executed : tallyEnsemble.executed =
      [(true, .stop), (true, .pushVariable "north"), (false, .stop), (false, .pushVariable "south"),
        (false, .storeVariable "south"), (false, .pushNumber ⟨0x4000000000000000⟩), (true, .storeVariable "north"),
        (true, .pushNumber ⟨0x3ff0000000000000⟩)] := by decide +kernel
  have undisturbed : Undisturbed tallyEnsemble.executed := by
    rw [executed]
    simp [Undisturbed]
  have alone := play_undisturbed (fun _ : Bool => tallyStage) (fun _ => .initial) Storage.empty tallyTurns undisturbed
    tallyTurns (List.prefix_refl _)
  exact ⟨undisturbed, by simp [executed], by simp [executed], alone⟩

end Tally

end Ensemble

end Dialogue
