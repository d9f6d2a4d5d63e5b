import Dialogue.Proofs.Machine.Options

/-!
What a handle is good for. Tickets count the prompts of a machine, so that a handle answers one prompt and no other: it
is accepted only while the machine waits at that prompt, and once the prompt is over it never will be again. The host
may present any handle at any time; one that is refused changes nothing and is given back.
-/

namespace Dialogue

variable {σ : Type} [VariableStore σ]

namespace Moment

/-- The moment at which a prompt is over: it is answered, or left by stopping the machine or by selecting a node. -/
def Ends (moment : Moment σ) : Prop :=
  moment.machine.status = .waiting ∧ moment.response.machine.status ≠ .waiting

/-- A moment in the middle of a prompt. -/
def Waits (moment : Moment σ) : Prop :=
  moment.machine.status = .waiting ∧ moment.response.machine.status = .waiting

/-- The ticket of the handle that the moment spends. -/
def spent? (moment : Moment σ) : Option Nat :=
  match moment.call with
  | .selectOption handle _ => if moment.succeeds then some handle.ticket else none
  | _ => none

theorem eq_of_spent? {moment : Moment σ} {ticket : Nat} (spent : moment.spent? = some ticket) :
    ∃ handle index chosen, moment.call = .selectOption handle index ∧ handle.ticket = ticket ∧
      moment.machine.selectOption handle index = .ok chosen := by
  obtain ⟨machine, store, stage, call⟩ := moment
  cases call with
  | selectOption handle index =>
    simp only [spent?, succeeds_selectOption_eq] at spent
    cases selected : machine.selectOption handle index with
    | error rejection => simp [selected, Except.isOk, Except.toBool] at spent
    | ok chosen =>
      refine ⟨handle, index, chosen, rfl, ?_, selected⟩
      simpa [selected, Except.isOk, Except.toBool] using spent
  | _ => cases spent

/-- The handle that is spent is the one of the prompt that it answers. -/
theorem ends_of_spent? {moment : Moment σ} {ticket : Nat} (spent : moment.spent? = some ticket) :
    moment.Ends ∧ moment.machine.ticket = ticket := by
  obtain ⟨handle, index, chosen, call, same, accepted⟩ := eq_of_spent? spent
  obtain ⟨waiting, current, choice, _, rfl⟩ := Machine.selectOption_ok accepted
  refine ⟨⟨waiting, ?_⟩, current.symm.trans same⟩
  rw [response, call, Machine.answer_chosen accepted]
  simp

end Moment

namespace History

variable {stage : Stage} {moments : List (Moment σ)} {machine : Machine}

/-- A machine that waits has done so ever since it was last asked to put a prompt before the host. -/
theorem suspension (history : History stage moments machine) (waiting : machine.status = .waiting) :
    ∃ later asking earlier texts, moments = later ++ asking :: earlier ∧
      asking.response.events = [.options texts ⟨machine.ticket, texts.length⟩] ∧
      machine.pending.length = texts.length ∧ ∀ moment ∈ later, moment.Waits := by
  revert waiting
  refine History.induction (motive := fun moments machine => machine.status = .waiting →
    ∃ later asking earlier texts, moments = later ++ asking :: earlier ∧
      asking.response.events = [.options texts ⟨machine.ticket, texts.length⟩] ∧
      machine.pending.length = texts.length ∧ ∀ moment ∈ later, moment.Waits)
    (fun waiting => by cases waiting) ?_ history
  intro moments machine past suspended store present alike call single waiting
  let moment : Moment σ := ⟨machine, store, present, call⟩
  rcases moment.asks_or_quiet single with ⟨texts, _, asks⟩ | quiet
  · refine ⟨[], moment, moments, texts, rfl, ?_, (captions_length asks.captions).symm, by simp⟩
    rw [asks.told, ← asks.ticket]
    rfl
  · have same : (machine.answer store present 0 call).machine = machine := quiet.stays waiting
    rw [same] at waiting ⊢
    obtain ⟨later, asking, earlier, texts, rfl, told, sameLength, waits⟩ := suspended waiting
    refine ⟨moment :: later, asking, earlier, texts, rfl, told, sameLength, fun other member => ?_⟩
    rcases List.mem_cons.mp member with rfl | before
    · exact ⟨waiting, same ▸ waiting⟩
    · exact waits other before

/-- A prompt that is over has an old ticket, and an older one than a prompt in progress. -/
theorem ended_ticket (history : History stage moments machine) :
    ∀ moment ∈ moments, moment.Ends →
      moment.machine.ticket ≤ machine.ticket ∧ (machine.status = .waiting → moment.machine.ticket < machine.ticket) := by
  refine History.induction (motive := fun moments machine => ∀ moment ∈ moments, moment.Ends →
      moment.machine.ticket ≤ machine.ticket ∧ (machine.status = .waiting → moment.machine.ticket < machine.ticket))
    (by simp) ?_ history
  intro moments machine past older store present alike call single other member ends
  let moment : Moment σ := ⟨machine, store, present, call⟩
  show other.machine.ticket ≤ moment.response.machine.ticket ∧
    (moment.response.machine.status = .waiting → other.machine.ticket < moment.response.machine.ticket)
  rcases moment.asks_or_quiet single with ⟨texts, _, asks⟩ | quiet
  · rcases List.mem_cons.mp member with rfl | before
    · exact absurd ends.1 asks.free
    · have least := (older other before ends).1
      rw [asks.ticket]
      exact ⟨Nat.le_succ_of_le least, fun _ => Nat.lt_succ_of_le least⟩
  · rcases List.mem_cons.mp member with rfl | before
    · exact ⟨Nat.le_of_eq quiet.ticket.symm, fun waiting => absurd waiting ends.2⟩
    · obtain ⟨least, less⟩ := older other before ends
      refine ⟨quiet.ticket ▸ least, fun waiting => ?_⟩
      have same : moment.response.machine = machine := quiet.stays waiting
      rw [same] at waiting ⊢
      exact less waiting

/-- No handle answers a prompt that is over. -/
theorem ended_refused (history : History stage moments machine) {moment : Moment σ} (member : moment ∈ moments)
    (ends : moment.Ends) {handle : Handle} (same : handle.ticket = moment.machine.ticket) (index : Nat) :
    machine.selectOption handle index = .error ⟨handle, .foreignSelection⟩ := by
  apply Machine.selectOption_foreign
  by_cases waiting : machine.status = .waiting
  · have older := (history.ended_ticket moment member ends).2 waiting
    exact .inr (by omega)
  · exact .inl waiting

theorem spent_nodup (history : History stage moments machine) : (moments.filterMap Moment.spent?).Nodup := by
  refine History.induction (motive := fun moments _ => (moments.filterMap Moment.spent?).Nodup)
    List.nodup_nil ?_ history
  intro moments machine past distinct store present alike call single
  rw [List.filterMap_cons]
  split
  · exact distinct
  next ticket spent =>
    refine List.nodup_cons.mpr ⟨fun member => ?_, distinct⟩
    obtain ⟨handle, index, chosen, _, same, accepted⟩ := Moment.eq_of_spent? spent
    obtain ⟨earlier, before, spentBefore⟩ := List.mem_filterMap.mp member
    obtain ⟨ends, old⟩ := Moment.ends_of_spent? spentBefore
    have refused := past.ended_refused before ends (same.trans old.symm) index
    rw [accepted] at refused
    cases refused

/-- A choice is accepted just at the prompt of its handle and for one of the options shown there. -/
theorem accepted_iff (history : History stage moments machine) {handle : Handle} {index : Nat} :
    (∃ chosen, machine.selectOption handle index = .ok chosen) ↔
      machine.status = .waiting ∧ handle.ticket = (promptsOf moments).length ∧
        ∃ texts issued, (promptsOf moments).getLast? = some (texts, issued) ∧ index < texts.length := by
  have accounts := history.accounts
  rw [accounts.count]
  constructor
  · rintro ⟨chosen, accepted⟩
    obtain ⟨waiting, current, _⟩ := Machine.selectOption_ok accepted
    obtain ⟨texts, issued, text, _, latest, there, _⟩ := history.chosen_caption accepted
    exact ⟨waiting, current, texts, issued, latest, (List.getElem?_eq_some_iff.mp there).1⟩
  · rintro ⟨waiting, current, texts, issued, latest, inside⟩
    obtain ⟨shown, last, captions⟩ := accounts.waiting waiting
    cases latest.symm.trans last
    have found := List.getElem?_eq_getElem (captions_length captions ▸ inside)
    exact ⟨_, Machine.selectOption_chosen waiting current found⟩

end History

/-- What the handles of a machine are good for after a history. -/
structure SingleUse (moments : List (Moment σ)) (machine : Machine) : Prop where
  /-- The tickets issued are 1, 2, 3 and so on, one for every prompt. -/
  issued : (promptsOf moments).map (·.2.ticket) = List.range' 1 (promptsOf moments).length
  accepted : ∀ handle index, (∃ chosen, machine.selectOption handle index = .ok chosen) ↔
    machine.status = .waiting ∧ handle.ticket = (promptsOf moments).length ∧
      ∃ texts issued, (promptsOf moments).getLast? = some (texts, issued) ∧ index < texts.length
  /-- No ticket has been accepted twice. -/
  once : (moments.filterMap Moment.spent?).Nodup
  /-- What is accepted was issued by the prompt at which the machine has been waiting ever since. -/
  during : ∀ handle index chosen, machine.selectOption handle index = .ok chosen →
    ∃ later asking earlier texts, moments = later ++ asking :: earlier ∧
      asking.response.events = [.options texts ⟨handle.ticket, texts.length⟩] ∧ index < texts.length ∧
      ∀ moment ∈ later, moment.Waits
  /-- Once a prompt is over its handle is refused for ever. -/
  expired : ∀ moment ∈ moments, moment.Ends → ∀ handle index, handle.ticket = moment.machine.ticket →
    machine.selectOption handle index = .error ⟨handle, .foreignSelection⟩
  /-- A refusal changes nothing and gives the handle back. -/
  refused : ∀ handle index rejection, machine.selectOption handle index = .error rejection →
    rejection.handle = handle ∧ ∀ (store : σ) (stage : Stage) (fuel : Nat),
      machine.answer store stage fuel (.selectOption handle index) = ⟨machine, store, [], .error rejection.fault⟩
  /-- So the handle of a prompt that was refused for its index is accepted with a better one. -/
  retried : ∀ handle index rejection, machine.selectOption handle index = .error rejection →
    machine.status = .waiting → handle.ticket = (promptsOf moments).length →
      ∀ texts issued, (promptsOf moments).getLast? = some (texts, issued) → ∀ better < texts.length,
        ∀ (store : σ) (stage : Stage) (fuel : Nat), ∃ chosen,
          (machine.answer store stage fuel (.selectOption handle index)).machine.selectOption rejection.handle better =
            .ok chosen

theorem rejection_handle {machine : Machine} {handle : Handle} {index : Nat} {rejection : Rejection}
    (refused : machine.selectOption handle index = .error rejection) : rejection.handle = handle := by
  rcases Machine.selectOption_error refused with rfl | rfl <;> rfl

/-- Handles are good for one use, at the prompt that they were issued with. -/
theorem History.handles_single_use {stage : Stage} {moments : List (Moment σ)} {machine : Machine}
    (history : History stage moments machine) : SingleUse moments machine where
  issued := by rw [history.accounts.count]; exact history.accounts.tickets
  accepted := fun _ _ => history.accepted_iff
  once := history.spent_nodup
  during := by
    intro handle index chosen accepted
    obtain ⟨waiting, current, choice, found, _⟩ := Machine.selectOption_ok accepted
    obtain ⟨later, asking, earlier, texts, split, told, sameLength, waits⟩ := history.suspension waiting
    have inside := (List.getElem?_eq_some_iff.mp found).1
    exact ⟨later, asking, earlier, texts, split, current ▸ told, sameLength ▸ inside, waits⟩
  expired := fun _ member ends _ index same => history.ended_refused member ends same index
  refused := fun _ _ _ refused => ⟨rejection_handle refused, Machine.answer_rejected refused⟩
  retried := by
    intro handle index rejection refused waiting current texts issued latest better inside store stage fuel
    rw [Machine.answer_rejected refused, rejection_handle refused]
    exact history.accepted_iff.mpr ⟨waiting, current, texts, issued, latest, inside⟩

section Quay

/-- The machine on the quay has spent its one handle, which it refuses from then on. -/
theorem handles_single_use_boardingMachine :
    ∃ moments : List (Moment Storage), History quayStage moments boardingMachine ∧
      (promptsOf moments).map (·.2.ticket) = [1] ∧ moments.filterMap Moment.spent? = [1] ∧
      SingleUse moments boardingMachine := by
  have selected := (History.new (σ := Storage)).call .empty (.refl quayStage) 0 (.selectNode "Quay")
  have asked := selected.call .empty (.refl quayStage) 9 .run
  have chosen : History quayStage _ boardingMachine :=
    asked.call .empty (.refl quayStage) 0 (.selectOption ⟨1, 2⟩ 0)
  exact ⟨_, chosen, rfl, rfl, chosen.handles_single_use⟩

end Quay

end Dialogue
