import Dialogue.Proofs.Machine.Prompt
import Dialogue.Proofs.Machine.Relabel

/-!
Conversations, as their hosts have them: one call after the other, each with its reply. A conversation goes the same
way in other words, with the machine, the replies and the handles relabeled throughout.
-/

namespace Dialogue

/-- A call of the host, with the number of steps that it may make if it is a run. -/
structure Turn where
  fuel : Nat
  call : HostCall
deriving DecidableEq

structure Reply where
  events : List Event
  result : Except Fault Outcome

/-- A machine and its store in the middle of a conversation, and what the host has heard so far. -/
structure Visit (σ : Type) where
  machine : Machine
  store : σ
  heard : List Reply

variable {σ τ : Type}

def Turn.relabel (labels : Relabeling) (turn : Turn) : Turn := { turn with call := turn.call.relabel labels }

theorem Turn.relabel_unshifted {labels : Relabeling} (unshifted : labels.start = 0) (turn : Turn) :
    turn.relabel labels = turn :=
  congrArg (Turn.mk turn.fuel) (turn.call.relabel_unshifted unshifted)

def Reply.relabel (labels : Relabeling) (reply : Reply) : Reply :=
  ⟨reply.events.map (Event.relabel labels), reply.result.mapError (Fault.relabel labels)⟩

theorem Reply.relabel_shift_zero (reply : Reply) : reply.relabel (.shift 0) = reply := by
  obtain ⟨events, result⟩ := reply
  unfold Reply.relabel
  rw [List.map_congr_left fun event _ => event.relabel_unshifted rfl, List.map_id']
  cases result with
  | ok outcome => rfl
  | error fault => exact congrArg (fun fault => Reply.mk events (.error fault)) (fault.relabel_shift 0)

theorem Turn.relabel_shift_zero (turn : Turn) : turn.relabel (.shift 0) = turn := turn.relabel_unshifted rfl

/-- What the host hears of a response. -/
def Response.reply (response : Response σ Outcome) : Reply := ⟨response.events, response.result⟩

theorem Response.Alike.reply {labels : Relabeling} {same : σ → τ → Prop} {first : Response σ Outcome}
    {second : Response τ Outcome} (alike : first.Alike labels same second) :
    second.reply = first.reply.relabel labels := by
  unfold Response.reply Reply.relabel
  rw [alike.events, alike.result]

namespace Visit

/-- A new machine, before its host has said anything. -/
def new (store : σ) : Visit σ := ⟨.initial, store, []⟩

/-- The handles that the host has been given, in the order of issue. -/
def handles (visit : Visit σ) : List Handle := (visit.heard.flatMap Reply.events).filterMap Event.handle?

/-- The two conversations are the same but for labels and for stores, which match. -/
structure Alike (labels : Relabeling) (same : σ → τ → Prop) (first : Visit σ) (second : Visit τ) : Prop where
  machine : second.machine = first.machine.relabel labels
  store : same first.store second.store
  heard : second.heard = first.heard.map (Reply.relabel labels)

theorem Alike.mono {labels : Relabeling} {same weaker : σ → τ → Prop} {first : Visit σ} {second : Visit τ}
    (alike : first.Alike labels same second) (weakens : ∀ {store other}, same store other → weaker store other) :
    first.Alike labels weaker second :=
  ⟨alike.machine, weakens alike.store, alike.heard⟩

/-- Without other labels the machines and the replies are the same. -/
theorem Alike.eq {same : σ → τ → Prop} {first : Visit σ} {second : Visit τ}
    (alike : first.Alike (.shift 0) same second) :
    first.machine = second.machine ∧ first.heard = second.heard := by
  have replies : first.heard.map (Reply.relabel (.shift 0)) = first.heard := by
    rw [List.map_congr_left fun reply _ => reply.relabel_shift_zero, List.map_id']
  rw [alike.machine, alike.heard, replies, Machine.relabel_shift]
  exact ⟨rfl, rfl⟩

theorem handle?_relabel (labels : Relabeling) (event : Event) :
    (event.relabel labels).handle? = event.handle?.map (Handle.relabel labels) := by
  cases event <;> rfl

theorem handles_relabel (labels : Relabeling) (heard : List Reply) :
    (((heard.map (Reply.relabel labels)).flatMap Reply.events).filterMap Event.handle?) =
      ((heard.flatMap Reply.events).filterMap Event.handle?).map (Handle.relabel labels) := by
  induction heard with
  | nil => rfl
  | cons reply rest ih =>
    have now : (reply.events.map (Event.relabel labels)).filterMap Event.handle? =
        (reply.events.filterMap Event.handle?).map (Handle.relabel labels) := by
      rw [List.filterMap_map, List.map_filterMap]
      exact congrArg (List.filterMap · reply.events) (funext (handle?_relabel labels))
    rw [List.map_cons, List.flatMap_cons, List.flatMap_cons, List.filterMap_append, List.filterMap_append, ih,
      List.map_append]
    exact congrArg (· ++ _) now

theorem Alike.handles {labels : Relabeling} {same : σ → τ → Prop} {first : Visit σ} {second : Visit τ}
    (alike : first.Alike labels same second) : second.handles = first.handles.map (Handle.relabel labels) := by
  unfold Visit.handles
  rw [alike.heard, handles_relabel]

variable [VariableStore σ] [VariableStore τ]

/-- The machine answers a call. -/
def take (stage : Stage) (visit : Visit σ) (turn : Turn) : Visit σ :=
  let response := visit.machine.answer visit.store stage turn.fuel turn.call
  ⟨response.machine, response.store, visit.heard ++ [response.reply]⟩

/-- The machine answers one call after the other. -/
def play (stage : Stage) (visit : Visit σ) (turns : List Turn) : Visit σ := turns.foldl (take stage) visit

theorem play_append (stage : Stage) (visit : Visit σ) (earlier later : List Turn) :
    visit.play stage (earlier ++ later) = (visit.play stage earlier).play stage later :=
  List.foldl_append

/-- What has been heard stays heard. -/
theorem heard_extends (stage : Stage) (visit : Visit σ) (turns : List Turn) :
    visit.heard <+: (visit.play stage turns).heard := by
  induction turns generalizing visit with
  | nil => exact List.prefix_refl _
  | cons turn rest ih => exact (List.prefix_append _ _).trans (ih (visit.take stage turn))

section Alike

variable {labels : Relabeling} {same : σ → τ → Prop} {first : Visit σ} {second : Visit τ} {stage : Stage}

theorem take_alike (faithful : labels.Faithful stage.program.strings) (writes : KeptByWrites same)
    (alike : first.Alike labels same second) {turn : Turn}
    (reads : ReadsAlike same (first.machine.momentsOf first.store stage turn.fuel turn.call)) :
    (first.take stage turn).Alike labels same (second.take (stage.relabel labels) (turn.relabel labels)) := by
  obtain ⟨machine, store, heard⟩ := second
  obtain ⟨rfl, stores, rfl⟩ := alike
  have answers := Machine.answer_alike faithful writes stores reads
  refine ⟨answers.machine, answers.store, ?_⟩
  unfold take
  rw [List.map_append, List.map_singleton, ← answers.reply]
  rfl

/-- Stores that read the same in everything play the same. -/
theorem play_alike (faithful : labels.Faithful stage.program.strings) (writes : KeptByWrites same)
    (reads : ∀ {store other}, same store other → VariableStore.read store = VariableStore.read other)
    (alike : first.Alike labels same second) (turns : List Turn) :
    (first.play stage turns).Alike labels same
      (second.play (stage.relabel labels) (turns.map (Turn.relabel labels))) := by
  induction turns generalizing first second with
  | nil => exact alike
  | cons turn rest ih =>
    exact ih (take_alike faithful writes alike fun _ _ name _ _ stores => congrFun (reads stores) name)

end Alike

end Visit

end Dialogue
