import Dialogue.Proofs.Machine.Events

/-!
What becomes of queued options. The queue of a machine is read off its history: the options queued since it was last
cleared, in their order, where only entering a node, taking the options and leaving them unanswered clear it. What a
prompt shows are the captions of just that queue, and a choice among them finds its destination there.
-/

namespace Dialogue

variable {σ : Type}

namespace Moment

variable [VariableStore σ]

/-- The instruction that the moment executes. -/
def executed? (moment : Moment σ) : Option Instruction :=
  if moment.call = .step ∧ moment.succeeds then moment.instruction? else none

/-- The option that the moment queues. -/
def queued? (moment : Moment σ) : Option Choice :=
  match moment.executed? with
  | some (.addOption text destination) => some ⟨text, destination⟩
  | _ => none

/-- Whether the queued options are taken, unasked or by a choice of the host that is accepted. -/
def takes (moment : Moment σ) : Bool :=
  match moment.call with
  | .step => moment.executed? = some .showOptions && isTakenUnasked moment.machine.pending
  | .selectOption _ _ => moment.succeeds
  | _ => false

/-- Whether the host stops the machine or abandons a prompt. -/
def drops (moment : Moment σ) : Bool :=
  match moment.call with
  | .stop => true
  | .selectNode _ => moment.machine.status = .waiting
  | _ => false

def clears (moment : Moment σ) : Bool := moment.enters || moment.takes || moment.drops

theorem executed?_step {machine : Machine} {store : σ} {stage : Stage} :
    (⟨machine, store, stage, .step⟩ : Moment σ).executed? =
      if (machine.step store stage).result.isOk then instruction? (⟨machine, store, stage, .step⟩ : Moment σ)
        else none := by
  rw [executed?, succeeds_step_eq]
  simp

end Moment

/-- The options queued in a history since the queue was last cleared, in the order of queuing. -/
def queueOf [VariableStore σ] (moments : List (Moment σ)) : List Choice :=
  ((moments.takeWhile fun moment => !moment.clears).filterMap Moment.queued?).reverse

theorem queueOf_cons [VariableStore σ] (moment : Moment σ) (moments : List (Moment σ)) :
    queueOf (moment :: moments) = if moment.clears then [] else queueOf moments ++ moment.queued?.toList := by
  unfold queueOf
  cases clears : moment.clears with
  | true => simp [clears]
  | false => cases queued : moment.queued? <;> simp [clears, queued]

namespace Machine

variable [VariableStore σ] {machine : Machine} {store : σ} {stage : Stage} {node : Node} {instruction : Instruction}
  {response : Response σ Flow}

/-- A step changes the queue as the instruction does that it executes, if it executes one. -/
theorem step_pending (machine : Machine) (store : σ) (stage : Stage) :
    (machine.step store stage).machine.pending =
      match (⟨machine, store, stage, .step⟩ : Moment σ).executed? with
      | some instruction => instruction.queueAfter machine.pending
      | none => machine.pending := by
  rw [Moment.executed?_step]
  have steps := machine.step_steps store stage
  generalize machine.step store stage = response at steps
  cases steps with
  | waits | nowhere | limited => rfl
  | finishes free current beyond => simp [Moment.instruction?, current, beyond]
  | @executes node instruction response free current here allowed executed =>
    have stands : Moment.instruction? (⟨machine, store, stage, .step⟩ : Moment σ) = some instruction :=
      Option.bind_eq_some_iff.mpr ⟨node, current, here⟩
    rw [Response.settle_pending, Response.settle_isOk, executed.pending_eq, stands]
    cases response.result.isOk <;> rfl

end Machine

namespace Moment

variable [VariableStore σ]

theorem clears_step {machine : Machine} {store : σ} {stage : Stage} :
    (⟨machine, store, stage, .step⟩ : Moment σ).clears =
      match (⟨machine, store, stage, .step⟩ : Moment σ).executed? with
      | some .runNode => true
      | some .showOptions => isTakenUnasked machine.pending
      | _ => false := by
  simp only [clears, enters, takes, drops, executed?_step, succeeds_step_eq, Bool.or_false]
  cases (machine.step store stage).result.isOk with
  | false => simp
  | true =>
    simp only [Bool.and_true, if_true]
    generalize (⟨machine, store, stage, .step⟩ : Moment σ).instruction? = stands
    rcases stands with _ | instruction
    · simp
    · cases instruction <;> simp

theorem clears_selectOption {machine : Machine} {store : σ} {stage : Stage} {handle : Handle} {index : Nat} :
    (⟨machine, store, stage, .selectOption handle index⟩ : Moment σ).clears =
      (machine.selectOption handle index).isOk := by
  simp only [clears, enters, takes, drops, succeeds_selectOption_eq, Bool.false_or, Bool.or_false]

/-- A call other than a step executes nothing, and so queues nothing. -/
theorem queued?_of_call {moment : Moment σ} (other : moment.call ≠ .step) : moment.queued? = none := by
  simp [queued?, executed?, other]

/-- A single call clears the queue, or keeps it with the option that it queues. -/
theorem pending_response (moment : Moment σ) (single : moment.call ≠ .run) :
    moment.response.machine.pending =
      if moment.clears then [] else moment.machine.pending ++ moment.queued?.toList := by
  obtain ⟨machine, store, stage, call⟩ := moment
  cases call with
  | selectNode name =>
    rw [queued?_of_call (by simp), clears, enters, succeeds_selectNode_eq]
    simp only [takes, drops, response, Machine.answer]
    cases known : stage.program.hasNode name with
    | true => rw [Machine.selectNode_known known]; rfl
    | false =>
      rw [Machine.selectNode_unknown known]
      by_cases waiting : machine.status = .waiting <;> simp [waiting]
  | step =>
    rw [clears_step, queued?]
    refine (machine.step_pending store stage).trans ?_
    dsimp only
    generalize (⟨machine, store, stage, .step⟩ : Moment σ).executed? = executed
    rcases executed with _ | instruction
    · simp
    · cases instruction <;> simp [Instruction.queueAfter]
  | run => exact absurd rfl single
  | selectOption handle index =>
    rw [queued?_of_call (by simp), clears_selectOption]
    show (machine.answer store stage 0 (.selectOption handle index)).machine.pending = _
    cases selected : machine.selectOption handle index with
    | error rejection => rw [Machine.answer_rejected selected]; exact (List.append_nil _).symm
    | ok chosen =>
      rw [Machine.answer_chosen selected]
      obtain ⟨_, _, choice, _, rfl⟩ := Machine.selectOption_ok selected
      rfl
  | stop => rfl

end Moment

/-- Whatever the host does, the queue of the machine is what its history says. -/
theorem History.pending_eq [VariableStore σ] {stage : Stage} {moments : List (Moment σ)} {machine : Machine}
    (history : History stage moments machine) : machine.pending = queueOf moments := by
  refine History.induction (motive := fun moments machine => machine.pending = queueOf moments) rfl ?_ history
  intro moments machine past same store present alike call single
  rw [queueOf_cons, ← same]
  exact Moment.pending_response ⟨machine, store, present, call⟩ single

/-- The texts and the handle of a prompt. -/
def Event.prompt? : Event → Option (List String × Handle)
  | .options texts handle => some (texts, handle)
  | _ => none

theorem Event.prompt?_of_isPassing {event : Event} (passing : event.isPassing = true) : event.prompt? = none := by
  cases event <;> first | rfl | cases passing

/-- The prompts of a history, in their order. -/
def promptsOf [VariableStore σ] (moments : List (Moment σ)) : List (List String × Handle) :=
  (toldIn moments).filterMap Event.prompt?

theorem promptsOf_cons [VariableStore σ] (moment : Moment σ) (moments : List (Moment σ)) :
    promptsOf (moment :: moments) = promptsOf moments ++ moment.response.events.filterMap Event.prompt? := by
  rw [promptsOf, toldIn_cons, List.filterMap_append, promptsOf]

namespace Response

/-- A response that puts a prompt before the host: the machine waits, and what is shown are the captions of its queue. -/
structure Asks {α : Type} (response : Response σ α) (before : Machine) (program : Program) (texts : List String) :
    Prop where
  free : before.status ≠ .waiting
  waits : response.machine.status = .waiting
  ticket : response.machine.ticket = before.ticket + 1
  captions : response.machine.pending.map (·.caption? program) = texts.map some
  told : response.events = [.options texts ⟨before.ticket + 1, texts.length⟩]

/-- A response without a prompt. If the machine waits it has done so before, and is as it was. -/
structure Quiet {α : Type} (response : Response σ α) (before : Machine) : Prop where
  told : response.events.filterMap Event.prompt? = []
  ticket : response.machine.ticket = before.ticket
  stays : response.machine.status = .waiting → response.machine = before

end Response

namespace Machine

variable {machine : Machine} {store : σ} {stage : Stage} {node : Node} {instruction : Instruction}
  {response : Response σ Flow}

theorem settle_quiet {before : Machine} (quiet : response.Quiet before) (free : response.machine.status ≠ .waiting)
    (program : Program) : (response.settle program).Quiet before := by
  obtain ⟨position, status, told, settled, stays, tells⟩ := response.settle_eq program
  have still : status ≠ .waiting := by
    rcases stays with rfl | rfl
    · exact free
    · decide
  have unasked : told.filterMap Event.prompt? = [] := by
    rcases tells with rfl | rfl <;> rfl
  rw [settled]
  refine ⟨?_, quiet.ticket, fun waiting => absurd waiting still⟩
  rw [List.filterMap_append, quiet.told, unasked]
  rfl

variable [VariableStore σ]

theorem Executes.quiet (executed : machine.Executes store stage node instruction response)
    (goes : response.result ≠ .ok .suspended) (free : machine.status ≠ .waiting) : response.Quiet machine := by
  refine ⟨?_, ?_, fun waiting => absurd waiting (executed.free goes free)⟩
  · cases executed with
    | told tells => simp [Event.prompt?_of_isPassing (Instruction.isPassing_of_told tells)]
    | prompted => exact absurd rfl goes
    | _ => rfl
  · cases executed with
    | prompted => exact absurd rfl goes
    | _ => rfl

/-- A step either puts a prompt before the host or is quiet. -/
theorem step_asks_or_quiet (machine : Machine) (store : σ) (stage : Stage) :
    (∃ texts, (machine.step store stage).Asks machine stage.program texts) ∨ (machine.step store stage).Quiet machine := by
  have steps := machine.step_steps store stage
  generalize machine.step store stage = response at steps
  cases steps with
  | waits waiting => exact .inr ⟨rfl, rfl, fun _ => rfl⟩
  | nowhere | finishes | limited => exact .inr ⟨rfl, rfl, fun waiting => by cases waiting⟩
  | @executes node instruction response free current here allowed executed =>
    by_cases suspends : response.result = .ok .suspended
    · obtain ⟨rfl, nonempty, asking, texts, shown, rfl⟩ := executed.suspended_response suspends
      exact .inl ⟨texts, free, rfl, rfl, captions_iff.mp shown, rfl⟩
    · have quiet := executed.quiet suspends machine.counted_free
      have still := executed.free suspends machine.counted_free
      have settled := settle_quiet quiet still stage.program
      refine .inr ⟨settled.told, settled.ticket, fun waiting => ?_⟩
      exact absurd (settled.stays waiting ▸ waiting) machine.counted_free

end Machine

namespace Moment

variable [VariableStore σ]

/-- Only a step puts a prompt before the host. -/
theorem asks_or_quiet (moment : Moment σ) (single : moment.call ≠ .run) :
    (∃ texts, moment.call = .step ∧ moment.response.Asks moment.machine moment.stage.program texts) ∨
      moment.response.Quiet moment.machine := by
  obtain ⟨machine, store, stage, call⟩ := moment
  cases call with
  | selectNode name =>
    exact .inr ⟨rfl, machine.selectNode_ticket stage.program name,
      fun waiting => absurd waiting (machine.selectNode_free stage.program name)⟩
  | step =>
    rcases machine.step_asks_or_quiet store stage with ⟨texts, asks⟩ | quiet
    · exact .inl ⟨texts, rfl, ⟨asks.free, asks.waits, asks.ticket, asks.captions, asks.told⟩⟩
    · exact .inr ⟨quiet.told, quiet.ticket, quiet.stays⟩
  | run => exact absurd rfl single
  | selectOption handle index =>
    refine .inr ?_
    show (machine.answer store stage 0 (.selectOption handle index)).Quiet machine
    cases selected : machine.selectOption handle index with
    | error rejection =>
      rw [Machine.answer_rejected selected]
      exact ⟨rfl, rfl, fun _ => rfl⟩
    | ok chosen =>
      rw [Machine.answer_chosen selected]
      obtain ⟨_, _, choice, _, rfl⟩ := Machine.selectOption_ok selected
      exact ⟨rfl, rfl, fun waiting => by cases waiting⟩
  | stop => exact .inr ⟨rfl, rfl, fun waiting => by cases waiting⟩

end Moment

/-- The prompts of a history and the machine after it: tickets count the prompts, and a machine that waits has the
queue whose captions were shown last. -/
structure Accounts [VariableStore σ] (moments : List (Moment σ)) (machine : Machine) (program : Program) : Prop where
  count : (promptsOf moments).length = machine.ticket
  tickets : (promptsOf moments).map (·.2.ticket) = List.range' 1 machine.ticket
  waiting : machine.status = .waiting → ∃ texts, (promptsOf moments).getLast? = some (texts, ⟨machine.ticket, texts.length⟩) ∧
    machine.pending.map (·.caption? program) = texts.map some

theorem History.accounts [VariableStore σ] {stage : Stage} {moments : List (Moment σ)} {machine : Machine}
    (history : History stage moments machine) : Accounts moments machine stage.program := by
  refine History.induction (motive := fun moments machine => Accounts moments machine stage.program)
    ⟨rfl, rfl, fun waiting => by cases waiting⟩ ?_ history
  intro moments machine past accounts store present alike call single
  let moment : Moment σ := ⟨machine, store, present, call⟩
  show Accounts (moment :: moments) moment.response.machine stage.program
  rcases moment.asks_or_quiet single with ⟨texts, _, asks⟩ | quiet
  · have shown : promptsOf (moment :: moments) =
        promptsOf moments ++ [(texts, ⟨machine.ticket + 1, texts.length⟩)] := by
      rw [promptsOf_cons, asks.told]
      rfl
    refine ⟨?_, ?_, fun _ => ⟨texts, ?_, ?_⟩⟩
    · rw [shown, asks.ticket, List.length_append, accounts.count]
      rfl
    · rw [shown, asks.ticket, List.map_append, accounts.tickets, List.range'_concat, Nat.one_mul, Nat.add_comm 1]
      rfl
    · rw [shown, asks.ticket, List.getLast?_append]
      rfl
    · rw [← alike.program]
      exact asks.captions
  · have unchanged : promptsOf (moment :: moments) = promptsOf moments := by
      rw [promptsOf_cons, quiet.told, List.append_nil]
    refine ⟨?_, ?_, fun waiting => ?_⟩
    · rw [unchanged, quiet.ticket]
      exact accounts.count
    · rw [unchanged, quiet.ticket]
      exact accounts.tickets
    · have same := quiet.stays waiting
      rw [same] at waiting ⊢
      rw [unchanged]
      exact accounts.waiting waiting

namespace Machine

/-- The next step of the machine executes that instruction: the machine stands at it, and neither a prompt nor a limit
is in the way. -/
structure Reaches (machine : Machine) (stage : Stage) (instruction : Instruction) : Prop where
  free : machine.status ≠ .waiting
  here : ∃ node, machine.currentNode? stage.program = some node ∧
    node.instructions[machine.position]? = some instruction
  allowed : machine.counted.limitFault? stage instruction = none

section Reaches

variable {machine : Machine} {store : σ} {stage : Stage}

theorem Reaches.step_eq [VariableStore σ] {instruction : Instruction} (reaches : machine.Reaches stage instruction)
    (store : σ) :
    ∃ node, machine.step store stage = (machine.counted.execute store stage node instruction).settle stage.program := by
  obtain ⟨node, current, here⟩ := reaches.here
  exact ⟨node, step_executed reaches.free current here reaches.allowed store⟩

theorem showOptions_alone {program : Program} {destination : String} (alone : machine.pending = [⟨none, destination⟩]) :
    machine.showOptions store program =
      ⟨{ machine with stack := .string destination :: machine.stack, pending := [] }, store, [], .ok .advance⟩ := by
  simp only [showOptions, alone]
  rfl

/-- Options that need an answer are shown, all of them or none. -/
theorem showOptions_open {program : Program} (nonempty : machine.pending ≠ [])
    (asking : ∀ destination, machine.pending ≠ [⟨none, destination⟩]) :
    machine.showOptions store program =
      match machine.pending.mapM (·.shownText program) with
      | .error fault => ⟨machine, store, [], .error fault⟩
      | .ok texts => ⟨{ machine with status := .waiting, ticket := machine.ticket + 1 }, store,
          [.options texts ⟨machine.ticket + 1, texts.length⟩], .ok .suspended⟩ := by
  unfold showOptions
  split
  next empty => exact absurd empty nonempty
  next destination alone => exact absurd alone (asking destination)
  next => rfl

theorem showOptions_asks {program : Program} {texts : List String} (nonempty : machine.pending ≠ [])
    (asking : ∀ destination, machine.pending ≠ [⟨none, destination⟩])
    (captions : machine.pending.map (·.caption? program) = texts.map some) :
    machine.showOptions store program = ⟨{ machine with status := .waiting, ticket := machine.ticket + 1 }, store,
      [.options texts ⟨machine.ticket + 1, texts.length⟩], .ok .suspended⟩ := by
  rw [showOptions_open nonempty asking, captions_iff.mpr captions]

variable [VariableStore σ]

/-- A variable that is to be read is read. -/
theorem Reaches.executed?_pushVariable {name : String} (reaches : machine.Reaches stage (.pushVariable name))
    (store : σ) : (⟨machine, store, stage, .step⟩ : Moment σ).executed? = some (.pushVariable name) := by
  obtain ⟨node, stepped⟩ := reaches.step_eq store
  have stands : Moment.instruction? (⟨machine, store, stage, .step⟩ : Moment σ) = some (.pushVariable name) := by
    obtain ⟨node, current, here⟩ := reaches.here
    exact Option.bind_eq_some_iff.mpr ⟨node, current, here⟩
  rw [Moment.executed?_step, stepped, Response.settle_isOk, stands]
  rfl

/-- A single option without a text is taken unasked. -/
theorem Reaches.takes_unasked (reaches : machine.Reaches stage .showOptions) {destination : String}
    (alone : machine.pending = [⟨none, destination⟩]) (store : σ) :
    (machine.step store stage).result = .ok () ∧
      (machine.step store stage).machine.stack = .string destination :: machine.stack ∧
      (machine.step store stage).machine.pending = [] ∧
      ∀ texts handle, .options texts handle ∉ (machine.step store stage).events := by
  obtain ⟨node, stepped⟩ := reaches.step_eq store
  have shown : machine.counted.execute store stage node .showOptions = _ :=
    machine.counted.showOptions_alone alone
  obtain ⟨position, status, told, settled, _, tells⟩ := Response.settle_eq
    (machine.counted.execute store stage node .showOptions) stage.program
  rw [← stepped, shown] at settled
  rw [settled]
  refine ⟨rfl, rfl, rfl, fun texts handle => ?_⟩
  rcases tells with rfl | rfl <;> simp

/-- Options that are worth a question are shown, if all of them resolve. -/
theorem Reaches.asks (reaches : machine.Reaches stage .showOptions) {texts : List String}
    (nonempty : machine.pending ≠ []) (asking : ∀ destination, machine.pending ≠ [⟨none, destination⟩])
    (captions : machine.pending.map (·.caption? stage.program) = texts.map some) (store : σ) :
    (machine.step store stage).result = .ok () ∧
      (machine.step store stage).events = [.options texts ⟨machine.ticket + 1, texts.length⟩] := by
  obtain ⟨node, stepped⟩ := reaches.step_eq store
  have shown : machine.counted.execute store stage node .showOptions = _ :=
    machine.counted.showOptions_asks nonempty asking captions
  rw [stepped, Response.settle_suspended (by rw [shown]), shown]
  exact ⟨rfl, rfl⟩

end Reaches

end Machine

namespace History

variable [VariableStore σ] {stage : Stage} {moments : List (Moment σ)} {machine : Machine}

/-- The option that an accepted choice names stands in the queue where its text stands among those shown last. -/
theorem chosen_caption (history : History stage moments machine) {handle : Handle} {index : Nat} {chosen : Machine}
    (accepted : machine.selectOption handle index = .ok chosen) :
    ∃ texts issued text choice, (promptsOf moments).getLast? = some (texts, issued) ∧ texts[index]? = some text ∧
      (queueOf moments)[index]? = some choice ∧ choice.caption? stage.program = some text ∧
      chosen.stack = .string choice.destination :: machine.stack ∧ chosen.pending = [] := by
  obtain ⟨waiting, _, choice, found, rfl⟩ := Machine.selectOption_ok accepted
  obtain ⟨texts, latest, captions⟩ := history.accounts.waiting waiting
  have listed := congrArg (·[index]?) captions
  simp only [List.getElem?_map, found, Option.map_some] at listed
  obtain ⟨text, there, caption⟩ := Option.map_eq_some_iff.mp listed.symm
  exact ⟨texts, _, text, choice, latest, there, history.pending_eq ▸ found, caption.symm, rfl, rfl⟩

/-- Options are neither lost nor doubled, reordered or carried over. Whatever the host does, the queue holds what has
been queued since it was last cleared. Where options are shown, a single one without a text is taken unasked, and others
are shown by just their captions, if these resolve; a choice that is accepted finds the destination of the text shown
at its place, and empties the queue. -/
theorem options_kept (history : History stage moments machine) {present : Stage} (alike : present.Alike stage)
    (store : σ) :
    machine.pending = queueOf moments ∧
    (machine.Reaches present .showOptions →
      (∀ destination, queueOf moments = [⟨none, destination⟩] →
        (machine.step store present).result = .ok () ∧
          (machine.step store present).machine.stack = .string destination :: machine.stack ∧
          (machine.step store present).machine.pending = [] ∧
          ∀ texts handle, .options texts handle ∉ (machine.step store present).events) ∧
      ∀ texts, queueOf moments ≠ [] → (∀ destination, queueOf moments ≠ [⟨none, destination⟩]) →
        (queueOf moments).map (·.caption? stage.program) = texts.map some →
          (machine.step store present).result = .ok () ∧
            ∃ handle, (machine.step store present).events = [.options texts handle]) ∧
    ∀ handle index chosen, machine.selectOption handle index = .ok chosen →
      ∃ texts issued text choice, (promptsOf moments).getLast? = some (texts, issued) ∧ texts[index]? = some text ∧
        (queueOf moments)[index]? = some choice ∧ choice.caption? stage.program = some text ∧
        chosen.stack = .string choice.destination :: machine.stack ∧ chosen.pending = [] := by
  rw [← history.pending_eq, ← alike.program]
  refine ⟨rfl, fun reaches => ⟨fun destination alone => reaches.takes_unasked alone store, ?_⟩, ?_⟩
  · intro texts nonempty asking captions
    obtain ⟨stepped, told⟩ := reaches.asks nonempty asking captions store
    exact ⟨stepped, _, told⟩
  · intro handle index chosen accepted
    rw [history.pending_eq, alike.program]
    exact history.chosen_caption accepted

end History

section Quay

/-- The machine on the quay that has queued both options and is about to show them. -/
def askingMachine : Machine where
  node := some "Quay"
  position := 2
  stack := []
  pending := [⟨some 0, "Ship"⟩, ⟨none, "Inn"⟩]
  status := .running
  steps := 2
  ticket := 0

theorem askingMachine_history : ∃ moments : List (Moment Storage), History quayStage moments askingMachine := by
  have selected := (History.new (σ := Storage)).call .empty (.refl quayStage) 0 (.selectNode "Quay")
  have first := selected.call .empty (.refl quayStage) 0 .step
  exact ⟨_, first.call .empty (.refl quayStage) 0 .step⟩

theorem options_kept_askingMachine :
    ∃ moments : List (Moment Storage), History quayStage moments askingMachine ∧
      askingMachine.Reaches quayStage .showOptions ∧ queueOf moments = [⟨some 0, "Ship"⟩, ⟨none, "Inn"⟩] ∧
      ∃ handle, (askingMachine.step Storage.empty quayStage).events = [.options ["Board the ship", "Inn"] handle] := by
  obtain ⟨moments, history⟩ := askingMachine_history
  obtain ⟨queue, shows, _⟩ := history.options_kept (.refl quayStage) Storage.empty
  have reaches : askingMachine.Reaches quayStage .showOptions := ⟨by decide, ⟨_, rfl, rfl⟩, rfl⟩
  obtain ⟨_, asks⟩ := shows reaches
  rw [← queue] at asks
  obtain ⟨_, told⟩ := asks ["Board the ship", "Inn"] (by decide) (fun _ alone => by cases alone) rfl
  exact ⟨moments, history, reaches, queue.symm, told⟩

end Quay

end Dialogue
