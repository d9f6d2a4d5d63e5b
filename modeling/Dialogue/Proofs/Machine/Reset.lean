import Dialogue.Proofs.Machine.Conversation

/-!
Selecting a node is a fresh start. Whatever a host has done with two machines before, once it has selected the same
node on both they go the same way, and it need not care which of them it talks to: only the numbers of their tickets
and, until it starts or stops them, their status remember that they have been used.
-/

namespace Dialogue

variable {σ τ : Type}

/-- What a host may ask without knowing a ticket: it refers to a prompt by its number. A run makes at least one step. -/
inductive Request where
  | selectNode (name : String)
  | step
  | run (more : Nat)
  | choose (prompt index : Nat)
  | stop
deriving DecidableEq

namespace Request

/-- The call that is made, given the handles issued so far; there is none for a prompt that has not been. -/
def turn? (handles : List Handle) : Request → Option Turn
  | .selectNode name => some ⟨0, .selectNode name⟩
  | .step => some ⟨0, .step⟩
  | .run more => some ⟨more + 1, .run⟩
  | .choose prompt index => handles[prompt]?.map fun handle => ⟨0, .selectOption handle index⟩
  | .stop => some ⟨0, .stop⟩

/-- Whether a machine that does not wait is set going or stopped. -/
def rouses (program : Program) : Request → Bool
  | .selectNode name => !program.hasNode name
  | .choose _ _ => false
  | _ => true

theorem turn?_relabel (labels : Relabeling) (handles : List Handle) (request : Request) :
    request.turn? (handles.map (Handle.relabel labels)) = (request.turn? handles).map (Turn.relabel labels) := by
  cases request with
  | choose prompt index =>
    simp only [turn?, List.getElem?_map, Option.map_map]
    rfl
  | _ => rfl

end Request

namespace Visit

variable [VariableStore σ]

def ask (stage : Stage) (visit : Visit σ) (request : Request) : Visit σ :=
  match request.turn? visit.handles with
  | some turn => visit.take stage turn
  | none => visit

def askAll (stage : Stage) (visit : Visit σ) (requests : List Request) : Visit σ := requests.foldl (ask stage) visit

end Visit

namespace Machine

section Status

variable [VariableStore σ] {machine : Machine} (free : machine.status ≠ .waiting) {status : Status}
  (also : status ≠ .waiting) (store : σ) (stage : Stage)

include free also

/-- A step does not care whether the machine was stopped or running. -/
theorem step_restatus : ({ machine with status } : Machine).step store stage = machine.step store stage := by
  unfold step
  rw [if_neg free, if_neg also]
  rfl

theorem run_restatus (more : Nat) :
    ({ machine with status } : Machine).run store stage (more + 1) = machine.run store stage (more + 1) := by
  rw [run_succ, run_succ, step_restatus free also]

/-- What sets a machine going or stops it makes its status forgotten. -/
theorem answer_rousing {request : Request} {handles : List Handle} {turn : Turn}
    (asked : request.turn? handles = some turn) (rouses : request.rouses stage.program = true) :
    ({ machine with status } : Machine).answer store stage turn.fuel turn.call =
      machine.answer store stage turn.fuel turn.call := by
  cases request with
  | selectNode name =>
    cases asked
    have unknown : stage.program.hasNode name = false := by simpa [Request.rouses] using rouses
    simp only [answer, selectNode_unknown unknown, if_neg free, if_neg also]
  | step =>
    cases asked
    simp only [answer, step_restatus free also]
  | run more =>
    cases asked
    simp only [answer, run_restatus free also]
  | choose => cases rouses
  | stop =>
    cases asked
    rfl

/-- Whatever else is asked of a machine that does not wait leaves its status alone and does not depend on it. -/
theorem answer_resting {request : Request} {handles : List Handle} {turn : Turn}
    (asked : request.turn? handles = some turn) (rests : request.rouses stage.program = false) :
    ({ machine with status } : Machine).answer store stage turn.fuel turn.call =
        { machine.answer store stage turn.fuel turn.call with
          machine := { (machine.answer store stage turn.fuel turn.call).machine with status } } ∧
      (machine.answer store stage turn.fuel turn.call).machine.status = machine.status := by
  cases request with
  | selectNode name =>
    cases asked
    have known : stage.program.hasNode name = true := by simpa [Request.rouses] using rests
    simp only [answer, selectNode_known known, if_neg free, if_neg also, and_self]
  | choose prompt index =>
    obtain ⟨handle, _, rfl⟩ := Option.map_eq_some_iff.mp asked
    have refused : ({ machine with status } : Machine).selectOption handle index = .error _ :=
      selectOption_foreign (.inl also) index
    rw [answer_rejected refused, answer_rejected (selectOption_foreign (.inl free) index)]
    exact ⟨rfl, rfl⟩
  | _ => cases rests

end Status

end Machine

section Status

variable [VariableStore σ] {machine : Machine} (free : machine.status ≠ .waiting) {status : Status}
  (also : status ≠ .waiting) (store : σ) {stage : Stage} (heard : List Reply) {request : Request}
  {handles : List Handle} {turn : Turn} (asked : request.turn? handles = some turn)

include free also asked

theorem Visit.take_rousing (rouses : request.rouses stage.program = true) :
    Visit.take stage ⟨{ machine with status }, store, heard⟩ turn = Visit.take stage ⟨machine, store, heard⟩ turn := by
  unfold Visit.take
  rw [Machine.answer_rousing free also store stage asked rouses]

theorem Visit.take_resting (rests : request.rouses stage.program = false) :
    Visit.take stage ⟨{ machine with status }, store, heard⟩ turn =
        { Visit.take stage ⟨machine, store, heard⟩ turn with
          machine := { (Visit.take stage ⟨machine, store, heard⟩ turn).machine with status } } ∧
      (Visit.take stage ⟨machine, store, heard⟩ turn).machine.status = machine.status := by
  obtain ⟨kept, still⟩ := Machine.answer_resting free also store stage asked rests
  refine ⟨?_, still⟩
  unfold Visit.take
  rw [kept]
  rfl

end Status

/-- A conversation follows another one that starts with tickets from `start`, with a status of its own as long as its
machine has not been roused. -/
structure Visit.Follows (start : Nat) (roused : Bool) (same : σ → τ → Prop) (base : Visit σ) (visit : Visit τ) :
    Prop where
  machine : ∃ status, visit.machine = { base.machine.relabel (.shift start) with status } ∧
    (status = base.machine.status ∨ roused = false ∧ status ≠ .waiting ∧ base.machine.status ≠ .waiting)
  store : same base.store visit.store
  heard : visit.heard = base.heard.map (Reply.relabel (.shift start))

section Follow

variable [VariableStore σ] [VariableStore τ] {same : σ → τ → Prop} (writes : KeptByWrites same)
  (reads : ∀ {store other}, same store other → VariableStore.read store = VariableStore.read other) (stage : Stage)
  {start : Nat} {roused : Bool} {base : Visit σ} {visit : Visit τ}

include writes reads

theorem Visit.ask_follows (follows : base.Follows start roused same visit) (request : Request) :
    (base.ask stage request).Follows start (roused || request.rouses stage.program) same (visit.ask stage request) := by
  obtain ⟨status, machine, forgets⟩ := follows.machine
  have handles : visit.handles = base.handles.map (Handle.relabel (.shift start)) := by
    unfold Visit.handles
    rw [follows.heard, handles_relabel]
  unfold Visit.ask
  rw [handles, Request.turn?_relabel]
  cases asked : request.turn? base.handles with
  | none =>
    have choice : request.rouses stage.program = false := by
      cases request with
      | choose => rfl
      | _ => cases asked
    rw [choice, Bool.or_false]
    exact follows
  | some turn =>
    simp only [Option.map_some]
    obtain ⟨_, store, heard⟩ := visit
    cases machine
    -- The conversation in which the status is that of the base, too.
    have straight : base.Alike (.shift start) same ⟨base.machine.relabel (.shift start), store, heard⟩ :=
      ⟨rfl, follows.store, follows.heard⟩
    have taken : (base.take stage turn).Alike (.shift start) same
        (Visit.take (stage.relabel (.shift start)) _ (turn.relabel (.shift start))) :=
      Visit.take_alike (Relabeling.faithful_shift start stage.program.strings) writes straight
        fun _ _ name _ _ stores => congrFun (reads stores) name
    rw [Stage.relabel_shift] at taken
    obtain ⟨machine, stores, replies⟩ := taken
    rcases forgets with rfl | ⟨rfl, rests, free⟩
    · exact ⟨⟨_, machine, .inl rfl⟩, stores, replies⟩
    · have askedToo : request.turn? (base.handles.map (Handle.relabel (.shift start))) =
          some (turn.relabel (.shift start)) := by rw [Request.turn?_relabel, asked, Option.map_some]
      have freeToo : (base.machine.relabel (.shift start)).status ≠ .waiting := free
      cases rouses : request.rouses stage.program with
      | true =>
        have forgotten := Visit.take_rousing freeToo rests store heard askedToo rouses
        rw [forgotten]
        exact ⟨⟨_, machine, .inl rfl⟩, stores, replies⟩
      | false =>
        obtain ⟨kept, still⟩ := Visit.take_resting freeToo rests store heard askedToo rouses
        rw [machine] at kept still
        have freeAfter : (base.take stage turn).machine.status ≠ .waiting := fun waiting => free (still.symm.trans waiting)
        rw [kept]
        exact ⟨⟨status, rfl, .inr ⟨rfl, rests, freeAfter⟩⟩, stores, replies⟩

theorem Visit.askAll_follows (follows : base.Follows start roused same visit) (requests : List Request) :
    (base.askAll stage requests).Follows start (roused || requests.any (Request.rouses stage.program)) same
      (visit.askAll stage requests) := by
  induction requests generalizing roused base visit with
  | nil =>
    rw [List.any_nil, Bool.or_false]
    exact follows
  | cons request rest ih =>
    rw [List.any_cons, ← Bool.or_assoc]
    exact ih (Visit.ask_follows writes reads stage follows request)

end Follow

/-- Two conversations that started with tickets from `start` and from `otherStart` are the same in everything but the
tickets and, as long as the machines have not been roused, their status. -/
structure Visit.SameButTickets (start otherStart : Nat) (roused : Bool) (same : σ → τ → Prop) (first : Visit σ)
    (second : Visit τ) : Prop where
  node : second.machine.node = first.machine.node
  position : second.machine.position = first.machine.position
  stack : second.machine.stack = first.machine.stack
  pending : second.machine.pending = first.machine.pending
  steps : second.machine.steps = first.machine.steps
  status : second.machine.status = first.machine.status ∨
    roused = false ∧ first.machine.status ≠ .waiting ∧ second.machine.status ≠ .waiting
  ticket : ∃ issued, first.machine.ticket = issued + start ∧ second.machine.ticket = issued + otherStart
  store : same first.store second.store
  results : second.heard.map Reply.result = first.heard.map Reply.result
  heard : ∃ heard : List Reply, first.heard = heard.map (Reply.relabel (.shift start)) ∧
    second.heard = heard.map (Reply.relabel (.shift otherStart))

theorem results_shift (start : Nat) (heard : List Reply) :
    (heard.map (Reply.relabel (.shift start))).map Reply.result = heard.map Reply.result := by
  rw [List.map_map]
  apply List.map_congr_left
  intro reply _
  change reply.result.mapError (Fault.relabel (.shift start)) = reply.result
  cases reply.result with
  | ok outcome => rfl
  | error fault => exact congrArg Except.error (fault.relabel_shift start)

/-- Conversations that follow the same one are the same in everything but what each may have of its own. -/
theorem Visit.sameButTickets_of_follows {same : σ → τ → Prop} {start otherStart : Nat} {roused : Bool}
    {base first : Visit σ} {second : Visit τ} (one : base.Follows start roused Eq first)
    (other : base.Follows otherStart roused same second) :
    first.SameButTickets start otherStart roused same second := by
  obtain ⟨machine, store, heard⟩ := first
  obtain ⟨machine', store', heard'⟩ := second
  obtain ⟨⟨status, rfl, forgets⟩, rfl, rfl⟩ := one
  obtain ⟨⟨status', rfl, forgets'⟩, stores, rfl⟩ := other
  simp only [Machine.relabel_shift]
  refine ⟨rfl, rfl, rfl, rfl, rfl, ?_, ⟨_, rfl, rfl⟩, stores, ?_, ⟨_, rfl, rfl⟩⟩
  · rcases forgets with rfl | ⟨rests, free, base⟩
    · rcases forgets' with rfl | ⟨rests', free', base'⟩
      · exact .inl rfl
      · exact .inr ⟨rests', base', free'⟩
    · rcases forgets' with rfl | ⟨_, free', _⟩
      · exact .inr ⟨rests, free, base⟩
      · exact .inr ⟨rests, free, free'⟩
  · rw [results_shift, results_shift]

/-- A machine that nobody has used, at the start of a node. -/
def Machine.atStart (name : String) : Machine :=
  { node := some name, position := 0, stack := [], pending := [], status := .stopped, steps := 0, ticket := 0 }

theorem Visit.selected_follows {same : σ → τ → Prop} {store : σ} {other : τ} (stores : same store other)
    {program : Program} {machine selected : Machine} {name : String}
    (selects : machine.selectNode program name = (selected, .ok ())) :
    (Visit.mk (.atStart name) store []).Follows machine.ticket false same ⟨selected, other, []⟩ := by
  cases known : program.hasNode name with
  | false =>
    rw [Machine.selectNode_unknown known] at selects
    cases selects
  | true =>
    rw [Machine.selectNode_known known] at selects
    cases selects
    have free : (if machine.status = .waiting then .stopped else machine.status) ≠ Status.waiting := by
      by_cases waiting : machine.status = .waiting <;> simp [waiting]
    have stopped : (Machine.atStart name).status ≠ .waiting := fun waiting => by cases waiting
    refine ⟨⟨if machine.status = .waiting then .stopped else machine.status, ?_, .inr ⟨rfl, free, stopped⟩⟩,
      stores, rfl⟩
    rw [Machine.relabel_shift]
    exact congrArg (Machine.mk _ _ _) (Nat.zero_add machine.ticket).symm

/-- Once the same node has been selected on two machines, whatever they have done before, their hosts have the same
conversations with them. Only the tickets differ, always by as much as before, and the status may differ until the
machines are roused. -/
theorem selectNode_resets [VariableStore σ] [VariableStore τ] {same : σ → τ → Prop} (writes : KeptByWrites same)
    (reads : ∀ {store other}, same store other → VariableStore.read store = VariableStore.read other)
    {store : σ} {other : τ} (stores : same store other) (stage : Stage) {first second one two : Machine} {name : String}
    (selected : first.selectNode stage.program name = (one, .ok ()))
    (selectedToo : second.selectNode stage.program name = (two, .ok ())) (requests : List Request) :
    ((Visit.mk one store []).askAll stage requests).SameButTickets first.ticket second.ticket
      (requests.any (Request.rouses stage.program)) same ((Visit.mk two other []).askAll stage requests) := by
  have fresh : (Visit.mk (.atStart name) store []).Follows first.ticket false Eq ⟨one, store, []⟩ :=
    Visit.selected_follows rfl selected
  have alone := Visit.askAll_follows keptByWrites_eq (fun same => congrArg _ same) stage fresh requests
  have too := Visit.askAll_follows writes reads stage (Visit.selected_follows stores selectedToo) requests
  rw [Bool.false_or] at alone too
  exact Visit.sameButTickets_of_follows alone too

section Quay

/-- Both hosts go to the inn, the one with a new machine and the other with one that was asked about the ship. -/
theorem selectNode_resets_quay :
    ∃ one two : Machine, Machine.initial.selectNode quay "Quay" = (one, .ok ()) ∧
      quayMachine.selectNode quay "Quay" = (two, .ok ()) ∧
      Visit.SameButTickets 0 1 true (fun store other : Storage => VariableStore.read store = VariableStore.read other)
        ((Visit.mk one Storage.empty []).askAll quayStage [.run 8, .choose 0 1, .run 8])
        ((Visit.mk two Storage.empty []).askAll quayStage [.run 8, .choose 0 1, .run 8]) ∧
      ((Visit.mk one Storage.empty []).askAll quayStage [.run 8, .choose 0 1, .run 8]).machine.node = some "Inn" ∧
      ((Visit.mk one Storage.empty []).askAll quayStage [.run 8, .choose 0 1, .run 8]).handles = [⟨1, 2⟩] ∧
      ((Visit.mk two Storage.empty []).askAll quayStage [.run 8, .choose 0 1, .run 8]).handles = [⟨2, 2⟩] := by
  have new : Machine.initial.selectNode quay "Quay" = (_, .ok ()) := rfl
  have used : quayMachine.selectNode quay "Quay" = (_, .ok ()) := rfl
  have same : VariableStore.read Storage.empty = VariableStore.read Storage.empty := rfl
  have resets := selectNode_resets keptByWrites_reads id same quayStage new used [.run 8, .choose 0 1, .run 8]
  exact ⟨_, _, new, used, resets, rfl, rfl, rfl⟩

end Quay

end Dialogue
