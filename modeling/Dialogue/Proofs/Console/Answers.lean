import Dialogue.Console.Play
import Dialogue.Proofs.Machine.Options

/-!
Plays on the command line, line by line. Between two lines a play stands at a prompt, and what becomes of it from there
depends on the prompt and on the lines to come only. A line that is the number of an option shown is taken as a choice;
any other is answered by a message, and the play stands where it stood before. So a line that is not taken may as well
be left out.
-/

namespace Dialogue.Console

namespace Report

theorem after_empty (report : Report) : report.after "" = report := by
  simp [after]

theorem after_after (earlier later : String) (report : Report) :
    (report.after later).after earlier = report.after (earlier ++ later) := by
  simp [after, String.append_assoc]

theorem map_after_after (earlier later : String) (report : Option Report) :
    (report.map (after later)).map (after earlier) = report.map (after (earlier ++ later)) := by
  cases report with
  | none => rfl
  | some report => exact congrArg some (report.after_after earlier later)

end Report

/-- Where a play stands: before a run of the machine, or at a prompt. -/
inductive Stand where
  | running (machine : Machine) (store : Storage)
  | asking (prompt : Prompt)

def Stand.machine : Stand → Machine
  | .running machine _ => machine
  | .asking prompt => prompt.machine

/-- What is still to come of a play, with the lines that are still to be read. -/
def Stand.rest (stand : Stand) (stage : Stage) (fuel : Nat) (lines : List (Option String)) : Option Report :=
  match stand with
  | .running machine store =>
    let response := machine.run store stage fuel
    let shown := showEvents response.events
    match nextOf response with
    | .ended report => some (report.after shown)
    | .unfinished _ _ => none
    | .prompt prompt => (converse stage fuel prompt lines).map (.after shown)
  | .asking prompt => converse stage fuel prompt lines

/-- The points that a play passes, each with the lines read before it, what the machine told and what was printed. -/
inductive ComesTo (program : Program) (start : String) (fuel : Nat) :
    List String → List Event → String → Stand → Prop
  | opened {machine : Machine} (opens : opening (stageOf program) start = .ok machine) :
      ComesTo program start fuel [] [] "" (.running machine .empty)
  | asks {read : List String} {told : List Event} {shown : String} {machine : Machine} {store : Storage}
      {prompt : Prompt} (before : ComesTo program start fuel read told shown (.running machine store))
      (next : nextOf (machine.run store (stageOf program) fuel) = .prompt prompt) :
      ComesTo program start fuel read (told ++ (machine.run store (stageOf program) fuel).events)
        (shown ++ showEvents (machine.run store (stageOf program) fuel).events) (.asking prompt)
  | taken {read : List String} {told : List Event} {shown line : String} {prompt : Prompt} {machine : Machine}
      (before : ComesTo program start fuel read told shown (.asking prompt))
      (accepted : prompt.answer line = .ok machine) :
      ComesTo program start fuel (read ++ [line]) told (shown ++ promptText) (.running machine prompt.store)
  | refused {read : List String} {told : List Event} {shown line message : String} {prompt : Prompt}
      (before : ComesTo program start fuel read told shown (.asking prompt))
      (refused : prompt.answer line = .error message) :
      ComesTo program start fuel (read ++ [line]) told (shown ++ s!"{promptText}{message}\n") (.asking prompt)

section Rest

variable {program : Program} {start line : String} {stage : Stage} {fuel : Nat} {machine : Machine} {store : Storage}
  {prompt : Prompt}

theorem play_opened (opens : opening (stageOf program) start = .ok machine) (input : List UInt8) :
    play program start input fuel = (Stand.running machine .empty).rest (stageOf program) fuel (inputLines input) := by
  cases next : nextOf (machine.run Storage.empty (stageOf program) fuel) <;>
    simp only [play, opens, Stand.rest, next]

theorem rest_asks (next : nextOf (machine.run store stage fuel) = .prompt prompt) (lines : List (Option String)) :
    (Stand.running machine store).rest stage fuel lines =
      ((Stand.asking prompt).rest stage fuel lines).map
        (.after (showEvents (machine.run store stage fuel).events)) := by
  simp only [Stand.rest, next]

theorem rest_taken (accepted : prompt.answer line = .ok machine) (lines : List (Option String)) :
    (Stand.asking prompt).rest stage fuel (some line :: lines) =
      ((Stand.running machine prompt.store).rest stage fuel lines).map (.after promptText) := by
  simp only [Stand.rest, converse, accepted]
  cases nextOf (machine.run prompt.store stage fuel) with
  | ended report => exact congrArg some (report.after_after _ _).symm
  | unfinished machine store => rfl
  | prompt next => exact (Report.map_after_after _ _ _).symm

theorem rest_refused {message : String} (refused : prompt.answer line = .error message)
    (lines : List (Option String)) :
    (Stand.asking prompt).rest stage fuel (some line :: lines) =
      ((Stand.asking prompt).rest stage fuel lines).map (.after s!"{promptText}{message}\n") := by
  simp only [Stand.rest, converse, refused]

end Rest

section Next

variable {machine : Machine} {store : Storage} {stage : Stage} {fuel : Nat}

theorem latestHandle?_concat (events : List Event) (texts : List String) (handle : Handle) :
    latestHandle? (events ++ [.options texts handle]) = some handle := by
  simp [latestHandle?]

theorem opening_eq_ok {start : String} (opens : opening stage start = .ok machine) (store : Storage) :
    (Machine.initial.answer store stage fuel (.selectNode start)).machine = machine := by
  unfold opening at opens
  split at opens
  next => cases opens
  next entered =>
    cases opens
    exact congrArg Prod.fst entered

/-- A run that waits has told of its prompt last. -/
theorem told_of_waiting (waits : (machine.run store stage fuel).result = .ok (some .waiting)) :
    (machine.run store stage fuel).machine.status = .waiting ∧ ∃ before texts handle,
      (machine.run store stage fuel).events = before ++ [.options texts handle] := by
  have ran : machine.Runs Storage stage _ (.ok .waiting) _ := Machine.run_runs waits
  obtain ⟨before, closing, told, _, closes⟩ := ran.shows
  cases closes with
  | asked texts handle => exact ⟨(ran.reaches rfl).1, before, texts, handle, told⟩

theorem nextOf_eq_prompt {response : Response Storage (Option Status)} {prompt : Prompt}
    (next : nextOf response = .prompt prompt) :
    response.result = .ok (some .waiting) ∧ latestHandle? response.events = some prompt.handle ∧
      prompt.machine = response.machine := by
  unfold nextOf at next
  split at next
  next fault failed => cases next
  next unfinished => cases next
  next waits =>
    split at next
    next handle latest =>
      cases next
      exact ⟨waits, latest, rfl⟩
    next absent => cases next
  next status other ended => cases next

end Next

section Answer

variable {prompt : Prompt} {program : Program} {texts : List String} {line : String}

theorem Prompt.answer_eq_ok {machine : Machine} (accepted : prompt.answer line = .ok machine) :
    ∃ index, readChoice? line = some index ∧ prompt.machine.selectOption prompt.handle index = .ok machine := by
  unfold Prompt.answer at accepted
  split at accepted
  next unread => cases accepted
  next index read =>
    cases selected : prompt.machine.selectOption prompt.handle index with
    | error rejection =>
      rw [selected] at accepted
      cases accepted
    | ok chosen =>
      rw [selected] at accepted
      cases accepted
      exact ⟨index, read, selected⟩

end Answer

namespace ComesTo

variable {program : Program} {start : String} {fuel : Nat} {read : List String} {told : List Event} {shown : String}
  {stand : Stand}

/-- The machine of a play has a history, which has told just what the play has. -/
theorem history (comes : ComesTo program start fuel read told shown stand) :
    ∃ moments : List (Moment Storage), History (stageOf program) moments stand.machine ∧ toldIn moments = told := by
  have alike := Stage.Alike.refl (stageOf program)
  induction comes with
  | @opened machine opens =>
    have selected := (History.new (σ := Storage)).call .empty alike fuel (.selectNode start)
    rw [opening_eq_ok opens] at selected
    refine ⟨_, selected, ?_⟩
    rw [List.append_nil, toldIn_momentsOf]
    rfl
  | @asks read told shown machine store prompt before next ih =>
    obtain ⟨moments, past, heard⟩ := ih
    obtain ⟨_, _, same⟩ := nextOf_eq_prompt next
    refine ⟨_, same ▸ past.call store alike fuel .run, ?_⟩
    rw [toldIn_append, heard, toldIn_momentsOf]
    rfl
  | @taken read told shown line prompt machine before accepted ih =>
    obtain ⟨moments, (past : History _ moments prompt.machine), heard⟩ := ih
    obtain ⟨index, _, selected⟩ := Prompt.answer_eq_ok accepted
    have answered := Machine.answer_chosen selected prompt.store (stageOf program) fuel
    have chosen := past.call prompt.store alike fuel (.selectOption prompt.handle index)
    rw [answered] at chosen
    refine ⟨_, chosen, ?_⟩
    rw [toldIn_append, heard, toldIn_momentsOf, answered]
    exact List.append_nil told
  | refused before refused ih => exact ih

/-- At a prompt the machine waits, and has told last of this prompt. -/
theorem prompted {prompt : Prompt} (comes : ComesTo program start fuel read told shown (.asking prompt)) :
    prompt.machine.status = .waiting ∧ ∃ before texts, told = before ++ [.options texts prompt.handle] := by
  generalize asking : Stand.asking prompt = stand at comes
  induction comes with
  | opened | taken => cases asking
  | @asks read told shown machine store prompt before next ih =>
    cases asking
    obtain ⟨waits, latest, same⟩ := nextOf_eq_prompt next
    obtain ⟨waiting, earlier, texts, handle, events⟩ := told_of_waiting waits
    rw [events, latestHandle?_concat, Option.some.injEq] at latest
    refine ⟨same ▸ waiting, told ++ earlier, texts, ?_⟩
    rw [events, latest, List.append_assoc]
  | refused before refused ih => exact ih asking

/-- What a play comes to from one of its points depends on the point and on the lines to come only. -/
theorem goesOn (comes : ComesTo program start fuel read told shown stand) {input : List UInt8}
    {lines : List (Option String)} (lined : inputLines input = read.map some ++ lines) :
    play program start input fuel = (stand.rest (stageOf program) fuel lines).map (.after shown) := by
  induction comes generalizing lines with
  | opened opens =>
    rw [play_opened opens, lined, List.map_nil, List.nil_append]
    rw [show Report.after "" = id from funext Report.after_empty, Option.map_id, id]
  | asks before next ih =>
    rw [ih lined, rest_asks next, Report.map_after_after]
  | @taken read told shown line prompt machine before accepted ih =>
    have earlier : inputLines input = read.map some ++ some line :: lines := by simpa using lined
    rw [ih earlier, rest_taken accepted, Report.map_after_after]
  | @refused read told shown line message prompt before refused ih =>
    have earlier : inputLines input = read.map some ++ some line :: lines := by simpa using lined
    rw [ih earlier, rest_refused refused, Report.map_after_after]

end ComesTo

section Quay

end Quay

end Dialogue.Console
