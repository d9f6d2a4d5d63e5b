import Dialogue.Check
import Dialogue.Image.Container
import Dialogue.Proofs.Image.ByteOrder
import Dialogue.Proofs.Program
import Dialogue.Source.Listing

/-!
Programs do not depend on the order in which their nodes were given. Nodes whose names differ can be collected in any
order, and make one program, which holds them by the ascending bytes of their names; so whatever is written or said
about it is the same as well.
-/

namespace Dialogue

section Agreement

theorem Number.equals_self (x : Number) : x.equals x = !x.isNaN := by
  simp [equals]

theorem all_zip_self {α : Type} (items : List α) (agree : α × α → Bool) :
    (items.zip items).all agree = items.all fun item => agree (item, item) := by
  induction items with
  | nil => rfl
  | cons item rest ih => rw [List.zip_cons_cons, List.all_cons, List.all_cons, ih]

/-- A number agrees with itself unless it is a NaN, and everything else does. -/
theorem Instruction.agrees_self {instruction : Instruction} :
    instruction.agrees instruction = true ↔ ∀ value, instruction = .pushNumber value → value.isNaN = false := by
  cases instruction with
  | pushNumber value => simp [agrees, Number.equals_self]
  | _ => simp [agrees]

theorem Program.agrees_self {program : Program} :
    program.agrees program = true ↔
      ∀ node ∈ program.nodes, ∀ value, .pushNumber value ∈ node.instructions → value.isNaN = false := by
  simp only [agrees, Node.agrees, all_zip_self, decide_true, Bool.true_and, List.all_eq_true, Instruction.agrees_self]
  constructor
  · intro agree node member value among
    exact agree node member _ among value rfl
  · rintro none node member _ among value rfl
    exact none node member value among

end Agreement

namespace Program

/-- However nodes of different names are ordered, they are collected into one program, which is written, listed and
checked in one way. It holds each of them once, by the ascending bytes of their names. Compared with itself it is found
to agree, unless a NaN is in it, which differs from itself. -/
theorem ofNodes_perm (name : String) (strings : List String) (nodes others : List Node)
    (distinct : (nodes.map Node.name).Nodup) (same : others.Perm nodes) :
    ∃ first second, ofNodes name strings nodes = .ok first ∧ ofNodes name strings others = .ok second ∧
      first = second ∧
      (first.agrees second = true ↔
        ∀ node ∈ nodes, ∀ value, .pushNumber value ∈ node.instructions → value.isNaN = false) ∧
      Image.RawProgram.ofProgram first = Image.RawProgram.ofProgram second ∧ Image.save first = Image.save second ∧
      Source.disassemble first = Source.disassemble second ∧
      (∀ signature?, first.check signature? = second.check signature?) ∧
      first.name = name ∧ first.strings = strings ∧ first.nodes.Perm nodes ∧
      first.nodes.Pairwise fun node later => Image.utf8 node.name < Image.utf8 later.name := by
  obtain ⟨program, collected, names, texts, all⟩ := ofNodes_of_nodup name strings distinct
  refine ⟨program, program, collected, ofNodes_of_perm collected same, rfl, ?_, rfl, rfl, rfl, fun _ => rfl, names,
    texts, all, program.ascending.imp Image.utf8_lt_of_lt⟩
  rw [agrees_self]
  exact forall_congr' fun node => imp_congr_left all.mem_iff

/-- Nodes in the order of neither their names nor their lengths. By its bytes the face stands behind the mark, although
its first unit of sixteen bits would put it in front. -/
def faces : List Node :=
  [⟨"😀", [], [.pushNumber (.nan true)]⟩, ⟨"Zoo", ["far"], [.stop]⟩, ⟨"\uFFFD", [], [.runLine 0]⟩]

/-- The faces are collected forwards and backwards into one program, which does not agree with itself for its NaN. -/
theorem ofNodes_perm_faces :
    (faces.map Node.name).Nodup ∧ faces.reverse.Perm faces ∧
      ∃ program, ofNodes "faces" ["Boo."] faces = .ok program ∧ ofNodes "faces" ["Boo."] faces.reverse = .ok program ∧
        program.nodes.map Node.name = ["Zoo", "\uFFFD", "😀"] ∧ ¬program.agrees program := by
  have distinct : (faces.map Node.name).Nodup := by decide
  have names : (ofNodes "faces" ["Boo."] faces).toOption.map (·.nodes.map Node.name) =
      some ["Zoo", "\uFFFD", "😀"] := by decide +kernel
  obtain ⟨first, second, collected, again, rfl, agrees, _⟩ :=
    ofNodes_perm "faces" ["Boo."] faces faces.reverse distinct faces.reverse_perm
  rw [collected] at names
  refine ⟨distinct, faces.reverse_perm, first, collected, again, Option.some.inj names, fun agree => ?_⟩
  have defined := agrees.mp agree _ List.mem_cons_self (.nan true) List.mem_cons_self
  exact absurd defined (by decide)

end Program

end Dialogue
