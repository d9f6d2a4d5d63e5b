import Dialogue.Proofs.Image.RoundTrip

/-!
Loading reads from left to right. A reader that has an answer, or has found something wrong other than the end of its
input, has seen all that it needs, and bytes behind do not change that. So a saved program that is cut anywhere is
never taken for a shorter one: every cut lacks something that is still to come.
-/

namespace Dialogue.Image

variable {α β : Type}

/-- What the reader finds does not depend on the bytes behind the ones that it has seen. -/
structure Streams (read : Reader α) : Prop where
  answered : ∀ {bytes value rest}, read bytes = .ok (value, rest) →
    ∀ more, read (bytes ++ more) = .ok (value, rest ++ more)
  failed : ∀ {bytes error}, read bytes = .error error → error ≠ .endOfInput →
    ∀ more, read (bytes ++ more) = .error error

namespace Streams

theorem pure (value : α) : Streams (pure value) where
  answered := by
    rintro bytes _ _ ⟨⟩ more
    rfl
  failed := by rintro bytes error ⟨⟩

theorem throw (error : BodyError) : Streams (throw error : Reader α) where
  answered := by rintro bytes value rest ⟨⟩
  failed := by
    rintro bytes _ ⟨⟩ _ more
    rfl

/-- A sequence of readers streams if each of them does: the second one starts where the first one stopped. -/
theorem bind {first : Reader α} {next : α → Reader β} (start : Streams first)
    (continued : ∀ value, Streams (next value)) : Streams (first >>= next) where
  answered := by
    intro bytes result rest read more
    rw [bind_apply] at read ⊢
    cases found : first bytes with
    | error error =>
      rw [found] at read
      cases read
    | ok pair =>
      rw [found] at read
      rw [start.answered found more]
      exact (continued pair.1).answered read more
  failed := by
    intro bytes error read seen more
    rw [bind_apply] at read ⊢
    cases found : first bytes with
    | error other =>
      rw [found] at read
      cases read
      rw [start.failed found seen more]
      rfl
    | ok pair =>
      rw [found] at read
      rw [start.answered found more]
      exact (continued pair.1).failed read seen more

theorem map {first : Reader α} (start : Streams first) (f : α → β) : Streams (do return f (← first)) :=
  start.bind fun value => Streams.pure (f value)

/-- Of what a reader takes as a whole, it takes no proper part. -/
theorem cut {read : Reader α} {bytes kept : List UInt8} {value : α} (streams : Streams read)
    (reads : Reads read bytes value) (front : kept <+: bytes) (proper : kept ≠ bytes) :
    read kept = .error .endOfInput := by
  obtain ⟨gone, rfl⟩ := front
  have whole : read (kept ++ gone) = .ok (value, []) := by
    have taken := reads []
    rwa [List.append_nil] at taken
  cases found : read kept with
  | ok pair =>
    -- What the reader left of the part would have to be left of the whole too, behind which nothing is left.
    have left := streams.answered found gone
    rw [whole] at left
    have nothing : pair.2 ++ gone = [] := (congrArg Prod.snd (Except.ok.inj left)).symm
    rw [(List.append_eq_nil_iff.mp nothing).2, List.append_nil] at proper
    exact absurd rfl proper
  | error error =>
    by_cases ended : error = .endOfInput
    · rw [ended]
    · have failed := streams.failed found ended gone
      rw [whole] at failed
      cases failed

end Streams

section Basic

theorem streams_byte : Streams readByte where
  answered := by
    rintro (_ | ⟨byte, behind⟩) value rest read more
    · cases read
    · cases read
      rfl
  failed := by
    rintro (_ | ⟨byte, behind⟩) error read seen more
    · cases read
      exact absurd rfl seen
    · cases read

theorem streams_varint (lastLimit remaining : Nat) : Streams (readVarint lastLimit remaining) := by
  induction remaining with
  | zero => exact Streams.throw .longVarint
  | succ remaining ih =>
    rw [readVarint_succ]
    refine streams_byte.bind fun byte => ?_
    split
    · split
      · exact Streams.throw .longVarint
      · exact Streams.pure _
    · exact ih.map _

theorem streams_count : Streams readCount := streams_varint 1 10

theorem streams_tag : Streams readTag := streams_varint 15 5

theorem streams_bytes (count : Nat) : Streams (readBytes count) where
  answered := by
    intro bytes value rest read more
    unfold readBytes at read ⊢
    split at read
    · cases read
    next enough =>
      cases read
      rw [if_neg (by rw [List.length_append]; omega), List.take_append_of_le_length (by omega),
        List.drop_append_of_le_length (by omega)]
  failed := by
    intro bytes error read seen more
    unfold readBytes at read
    split at read
    · cases read
      exact absurd rfl seen
    · cases read

theorem streams_text : Streams readText := by
  unfold readText
  refine streams_count.bind fun count => (streams_bytes count).bind fun bytes => ?_
  split
  · exact Streams.pure _
  · exact Streams.throw .badUtf8

theorem streams_number : Streams readNumberWord := (streams_bytes 8).map _

theorem streams_flag : Streams readFlag := by
  unfold readFlag
  refine streams_byte.bind fun byte => ?_
  split
  · exact Streams.pure false
  · split
    · exact Streams.pure true
    · exact Streams.throw .badBool

end Basic

section Forms

variable {read : Reader α}

theorem streams_items (each : Streams read) (count : Nat) : Streams (readItems read count) := by
  induction count with
  | zero => exact Streams.pure []
  | succ count ih => exact each.bind fun item => ih.map (item :: ·)

theorem streams_list (each : Streams read) : Streams (readList read) :=
  streams_count.bind (streams_items each)

theorem streams_operand : Streams readOperand := by
  unfold readOperand
  refine streams_tag.bind fun tag => ?_
  split
  · exact Streams.pure Operand.none
  · exact streams_text.map Operand.string
  · exact streams_number.map Operand.number
  · exact streams_flag.map Operand.bool
  · exact Streams.throw .unknownTag

theorem streams_instruction : Streams readRawInstruction :=
  streams_byte.bind fun opcode => streams_operand.bind fun first => streams_operand.map (RawInstruction.mk opcode first)

theorem streams_node : Streams readRawNode :=
  streams_text.bind fun name => (streams_list streams_text).bind fun tags =>
    (streams_list streams_instruction).map (RawNode.mk name tags)

theorem streams_body : Streams readBody :=
  streams_text.bind fun name => (streams_list streams_text).bind fun strings =>
    (streams_list streams_node).map (RawProgram.mk name strings)

end Forms

section Container

theorem load_of_short {bytes : List UInt8} (short : bytes.length < headerLength) : load bytes = .error .badMagic :=
  if_pos (.inl short)

/-- A body that does not end too early is loaded as it is with anything behind it. -/
theorem loadBody_append {body : List UInt8} (seen : loadBody body ≠ .error (.malformed .endOfInput))
    (more : List UInt8) : loadBody (body ++ more) = loadBody body := by
  unfold loadBody at seen ⊢
  cases found : readBody body with
  | ok pair => rw [streams_body.answered found more]
  | error error =>
    have other : error ≠ .endOfInput := by
      rintro rfl
      rw [found] at seen
      exact seen rfl
    rw [streams_body.failed found other more]

theorem load_append {bytes : List UInt8} (long : headerLength ≤ bytes.length)
    (seen : load bytes ≠ .error (.malformed .endOfInput)) (more : List UInt8) :
    load (bytes ++ more) = load bytes := by
  obtain ⟨header, body, rfl, length⟩ : ∃ header body, bytes = header ++ body ∧ header.length = headerLength :=
    ⟨_, _, (List.take_append_drop headerLength bytes).symm, List.length_take_of_le long⟩
  rw [List.append_assoc, load_header_append length, load_header_append length]
  rw [load_header_append length] at seen
  cases checked : checkHeader header with
  | error error => rfl
  | ok =>
    rw [checked] at seen
    exact loadBody_append seen more

/-- A saved program that is cut behind its header lacks something of its body. -/
theorem load_cut {program : Program} (fits : (RawProgram.ofProgram program).Fits) {kept : List UInt8}
    (front : kept <+: save program) (proper : kept ≠ save program) (long : headerLength ≤ kept.length) :
    load kept = .error (.malformed .endOfInput) := by
  have length : (magic ++ littleEndian formatVersion 2).length = headerLength := rfl
  have whole : save program = magic ++ littleEndian formatVersion 2 ++ writeBody (.ofProgram program) := rfl
  rw [whole] at front proper
  obtain ⟨body, rfl⟩ : magic ++ littleEndian formatVersion 2 <+: kept :=
    List.prefix_of_prefix_length_le (List.prefix_append _ _) front (length ▸ long)
  have missing : readBody body = .error .endOfInput := by
    refine streams_body.cut (reads_body fits) ((List.prefix_append_right_inj _).mp front) ?_
    rintro rfl
    exact proper rfl
  rw [load_header_append length]
  show loadBody body = _
  unfold loadBody
  rw [missing]

end Container

/-- A saved program that is cut is refused: without its whole header it is no program, and with that its body ends too
early. And whatever a row of bytes is loaded as, or refused for other than being too short, does not change with bytes
behind it. -/
theorem load_streams :
    (∀ program : Program, (RawProgram.ofProgram program).Fits →
      ∀ kept : List UInt8, kept <+: save program → kept ≠ save program →
        load kept = .error (if kept.length < headerLength then .badMagic else .malformed .endOfInput)) ∧
    ∀ bytes : List UInt8, load bytes ≠ .error (.malformed .endOfInput) →
      (load bytes = .error .badMagic → headerLength ≤ bytes.length) →
        ∀ more, load (bytes ++ more) = load bytes := by
  constructor
  · intro program fits kept front proper
    by_cases short : kept.length < headerLength
    · rw [if_pos short, load_of_short short]
    · rw [if_neg short, load_cut fits front proper (Nat.le_of_not_lt short)]
  · intro bytes seen marked more
    have long : headerLength ≤ bytes.length := by
      by_contra short
      exact short (marked (load_of_short (Nat.lt_of_not_le short)))
    exact load_append long seen more

/-- The ferry lacks its last operand, and a count that does not end is found as soon as it is too long. -/
theorem load_streams_ferry : (RawProgram.ofProgram ferry).Fits ∧
    load ((save ferry).take 3) = .error .badMagic ∧ load (save ferry).dropLast = .error (.malformed .endOfInput) ∧
    ∀ more, load (magic ++ [1, 0] ++ List.replicate 10 0xff ++ more) = .error (.malformed .longVarint) := by
  have fits : (RawProgram.ofProgram ferry).Fits := by decide +kernel
  have cut := load_streams.1 ferry fits
  have endless : load (magic ++ [1, 0] ++ List.replicate 10 0xff) = .error (.malformed .longVarint) := rfl
  refine ⟨fits, ?_, ?_, fun more => ?_⟩
  · exact cut _ (List.take_prefix _ _) (by decide +kernel)
  · rw [cut _ (List.dropLast_prefix _) (by decide +kernel), if_neg (by decide +kernel)]
  · rw [load_streams.2 _ (by rw [endless]; simp) (by rw [endless]; simp) more, endless]

end Dialogue.Image
