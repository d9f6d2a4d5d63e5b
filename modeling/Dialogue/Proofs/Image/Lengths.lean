import Dialogue.Proofs.Image.Codec

/-!
Everything that is read has lengths that can be written. `Answers` says of a reader what holds of all its answers, and
is closed under sequencing; what is behind a count has as many items as the count says, and no count is too large.
-/

namespace Dialogue.Image

variable {α β : Type}

/-- What holds of every answer, whatever bytes it is read from. -/
def Answers (read : Reader α) (holds : α → Prop) : Prop :=
  ∀ bytes value rest, read bytes = .ok (value, rest) → holds value

namespace Answers

variable {holds : α → Prop} {result : β → Prop}

theorem pure {value : α} (held : holds value) : Answers (pure value) holds := by
  rintro bytes _ _ ⟨⟩
  exact held

theorem throw (error : BodyError) : Answers (throw error : Reader α) holds := by rintro bytes value rest ⟨⟩

theorem bind {first : Reader α} {next : α → Reader β} (start : Answers first holds)
    (continued : ∀ value, holds value → Answers (next value) result) : Answers (first >>= next) result := by
  intro bytes value rest read
  rw [bind_apply] at read
  cases found : first bytes with
  | error error =>
    rw [found] at read
    cases read
  | ok pair =>
    rw [found] at read
    exact continued pair.1 (start _ _ _ found) _ _ _ read

theorem map {first : Reader α} {f : α → β} (start : Answers first holds)
    (kept : ∀ value, holds value → result (f value)) : Answers (do return f (← first)) result :=
  start.bind fun value held => Answers.pure (kept value held)

theorem any (read : Reader α) : Answers read fun _ => True := fun _ _ _ _ => trivial

end Answers

section Basic

/-- So many bytes hold no larger varint than the one with all bits set. -/
theorem answers_varint (lastLimit remaining : Nat) :
    Answers (readVarint lastLimit (remaining + 1)) (· < (lastLimit + 1) * 128 ^ remaining) := by
  induction remaining with
  | zero =>
    rw [readVarint_succ]
    refine (Answers.any readByte).bind fun byte _ => ?_
    split
    · split
      · exact Answers.throw .longVarint
      · exact Answers.pure (by omega)
    · have none : Answers (readVarint lastLimit 0) fun _ => False := Answers.throw .longVarint
      exact none.map fun _ nothing => nothing.elim
  | succ remaining ih =>
    have some : 0 < (lastLimit + 1) * 128 ^ remaining := Nat.mul_pos lastLimit.succ_pos (Nat.pow_pos (by decide))
    rw [readVarint_succ, Nat.pow_succ, ← Nat.mul_assoc]
    refine (Answers.any readByte).bind fun byte _ => ?_
    have limit := byte.toNat_lt
    split
    · split
      · exact Answers.throw .longVarint
      · exact Answers.pure (by omega)
    · exact ih.map fun high bound => by omega

theorem answers_count : Answers readCount IsCount := answers_varint 1 9

theorem answers_bytes (count : Nat) : Answers (readBytes count) (·.length = count) := by
  intro bytes value rest read
  unfold readBytes at read
  split at read
  · cases read
  next enough =>
    cases read
    exact List.length_take_of_le (Nat.le_of_not_lt enough)

theorem utf8_of_ofUtf8? {bytes : List UInt8} {text : String} (decoded : ofUtf8? bytes = some text) :
    utf8 text = bytes := by
  unfold ofUtf8? String.fromUTF8? at decoded
  split at decoded
  · cases decoded
    rfl
  · cases decoded

theorem answers_text : Answers readText TextFits := by
  unfold readText
  refine answers_count.bind fun count small => (answers_bytes count).bind fun bytes length => ?_
  split
  next text decoded =>
    refine Answers.pure ?_
    unfold TextFits
    rwa [utf8_of_ofUtf8? decoded, length]
  next => exact Answers.throw .badUtf8

end Basic

section Forms

variable {read : Reader α} {holds : α → Prop}

theorem answers_items (each : Answers read holds) (count : Nat) :
    Answers (readItems read count) fun items => items.length = count ∧ ∀ item ∈ items, holds item := by
  induction count with
  | zero => exact Answers.pure ⟨rfl, by simp⟩
  | succ count ih =>
    refine each.bind fun item held => ih.map fun items => ?_
    rintro ⟨length, all⟩
    exact ⟨congrArg (· + 1) length, List.forall_mem_cons.mpr ⟨held, all⟩⟩

theorem answers_list (each : Answers read holds) : Answers (readList read) (ListFits holds) := by
  refine answers_count.bind fun count small => ?_
  intro bytes items rest found
  obtain ⟨length, all⟩ := answers_items each count _ _ _ found
  exact ⟨length ▸ small, all⟩

theorem answers_operand : Answers readOperand Operand.Fits := by
  unfold readOperand
  refine (Answers.any readTag).bind fun tag _ => ?_
  split
  · exact Answers.pure trivial
  · exact answers_text.map fun _ fits => fits
  · exact (Answers.any readNumberWord).map fun _ _ => trivial
  · exact (Answers.any readFlag).map fun _ _ => trivial
  · exact Answers.throw .unknownTag

theorem answers_instruction : Answers readRawInstruction RawInstruction.Fits :=
  (Answers.any readByte).bind fun _ _ => answers_operand.bind fun _ first => answers_operand.map fun _ second =>
    ⟨first, second⟩

theorem answers_node : Answers readRawNode RawNode.Fits :=
  answers_text.bind fun _ name => (answers_list answers_text).bind fun _ tags =>
    (answers_list answers_instruction).map fun _ instructions => ⟨name, tags, instructions⟩

theorem answers_body : Answers readBody RawProgram.Fits :=
  answers_text.bind fun _ name => (answers_list answers_text).bind fun _ strings =>
    (answers_list answers_node).map fun _ nodes => ⟨name, strings, nodes⟩

end Forms

end Dialogue.Image
