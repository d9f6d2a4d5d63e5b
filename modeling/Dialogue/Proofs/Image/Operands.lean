import Dialogue.Proofs.Image.RoundTrip
import Dialogue.Proofs.Number.Value

/-!
What an instruction reads from its operands. Each opcode reads none, one or both of them, and each one that it reads
has to be of some kind. What it does not read may be anything, and what it reads is written back in one way only.
-/

namespace Dialogue

theorem Opcode.ofByte?_eq_some {byte : UInt8} {opcode : Opcode} :
    Opcode.ofByte? byte = some opcode ↔ opcode.byte = byte := by
  constructor
  · intro found
    simpa using List.find?_some found
  · rintro rfl
    exact ofByte?_byte opcode

namespace Image

/-- What is read from an operand. -/
inductive Slot where
  | string
  | index
  /-- An index, or the number minus one for none. -/
  | optionText
  | number
  | bool
deriving DecidableEq

/-- What is read from the first and from the second operand, if anything is. -/
def slotsOf : Opcode → Option Slot × Option Slot
  | .label | .jumpTo | .jumpIfFalse | .runCommand | .callFunction | .pushVariable | .storeVariable =>
    (some .string, none)
  | .runLine | .pushString => (some .index, none)
  | .addOption => (some .optionText, some .string)
  | .pushNumber => (some .number, none)
  | .pushBool => (some .bool, none)
  | .jump | .showOptions | .pushNull | .pop | .stop | .runNode => (none, none)

/-- The number `2 ^ 64`, which is beyond all indices. -/
def indexLimit : Number := .ofWord false ((1023 + 64) * Number.fractionCount)

/-- The one number as which an index is written: zero has no sign, and everything beyond the indices is alike. -/
def canonicalIndex (x : Number) : Number :=
  if x.isZero then .zero false
  else if ((2 ^ 64 * Number.one : Nat) : Int) ≤ x.signedUnits then indexLimit
  else x

namespace Slot

/-- Which operands will do. -/
def Takes : Slot → Operand → Prop
  | .string, .string _ => True
  | .index, .number x => ∃ n : Nat, x.HasValue n
  | .optionText, .number x => x.HasValue (-1) ∨ ∃ n : Nat, x.HasValue n
  | .number, .number _ => True
  | .bool, .bool _ => True
  | _, _ => False

/-- How it is called when an operand will not do. -/
def need : Slot → Need
  | .string => .string
  | .index | .optionText => .index
  | .number => .number
  | .bool => .bool

/-- The operand as which the one that was read is written. -/
def canonical : Slot → Operand → Operand
  | .index, .number x | .optionText, .number x => .number (canonicalIndex x)
  | _, operand => operand

/-- The function reads what the slot says, complains about everything else, and undoes what writing does. -/
structure ReadBy {α : Type} (slot : Slot) (opcode : Opcode) (read : Operand → Except Flaw α) (write : α → Operand) :
    Prop where
  taken : ∀ {operand}, slot.Takes operand → ∃ value, read operand = .ok value ∧ write value = slot.canonical operand
  refused : ∀ {operand}, ¬slot.Takes operand → read operand = .error (.badOperand opcode slot.need operand)

end Slot

section Index

variable {x : Number} {n : Nat}

theorem hasValue_noText : noText.HasValue (-1) := ⟨by decide +kernel, by decide +kernel⟩

theorem hasValue_indexLimit : indexLimit.HasValue (2 ^ 64 : Nat) := ⟨by decide +kernel, by decide +kernel⟩

/-- The canonical form of a natural number is that number without a sign, or else the limit. -/
theorem canonicalIndex_of_hasValue (value : x.HasValue n) :
    canonicalIndex x = if n = 0 then .zero false else if 2 ^ 64 ≤ n then indexLimit else x := by
  have positive := Number.one_pos
  have units : x.signedUnits = (n * Number.one : Nat) := by rw [value.2, Nat.cast_mul]
  have zero : x.isZero = true ↔ n = 0 := by
    rw [← Number.units_eq_zero_iff, x.units_eq_natAbs, units, Int.natAbs_natCast, Nat.mul_eq_zero]
    exact or_iff_left positive.ne'
  have beyond : ((2 ^ 64 * Number.one : Nat) : Int) ≤ x.signedUnits ↔ 2 ^ 64 ≤ n := by
    rw [units, Int.ofNat_le, Nat.mul_le_mul_right_iff positive]
  unfold canonicalIndex
  simp only [zero, beyond]

/-- A natural number is written back as itself, as far as it can be an index. -/
theorem ofNat_clampIndex (whole : x.toNat? = some n) : Number.ofNat (clampIndex n).toNat = canonicalIndex x := by
  rw [canonicalIndex_of_hasValue (Number.hasValue_natCast.mpr whole), toNat_clampIndex]
  obtain ⟨finite, sign, units⟩ := Number.toNat?_eq_some.mp whole
  split
  next zero =>
    rw [zero]
    decide +kernel
  next some =>
    split
    next large =>
      rw [Nat.min_eq_right (by omega)]
      decide +kernel
    next small =>
      have unsigned : x.isNegative = false := by
        refine sign.resolve_right fun zero => some ?_
        rw [Number.units_eq_zero zero] at units
        exact (Nat.mul_eq_zero.mp units.symm).resolve_right Number.one_pos.ne'
      have own := Number.ofUnits_units finite Nat.one_pos
      rw [unsigned, Nat.mul_one, units] at own
      rw [Nat.min_eq_left (by omega)]
      exact own

/-- An index that was read is one that is kept when it is stored. -/
theorem storedIndex_of_readIndex {opcode : Opcode} {operand : Operand} {index : UInt64}
    (read : readIndex opcode operand = .ok index) : storedIndex index = index := by
  unfold readIndex at read
  split at read
  next x =>
    split at read
    next n whole =>
      cases read
      refine storedIndex_eq_self.mpr ?_
      rw [toNat_clampIndex]
      rcases Nat.lt_or_ge n (2 ^ 64) with small | large
      · rw [Nat.min_eq_left (by omega)]
        exact .inl ⟨x, whole⟩
      · exact .inr (Nat.min_eq_right (by omega))
    next => cases read
  next => cases read

theorem storedIndex_of_readOptionText {opcode : Opcode} {operand : Operand} {text : Option UInt64}
    (read : readOptionText opcode operand = .ok text) : text.map storedIndex = text := by
  unfold readOptionText at read
  split at read
  · cases read
    rfl
  · cases found : readIndex opcode operand with
    | error flaw =>
      rw [found] at read
      cases read
    | ok index =>
      rw [found] at read
      cases read
      exact congrArg some (storedIndex_of_readIndex found)

end Index

section Slots

variable (opcode : Opcode)

/-- A slot that takes all operands of one form is read as what they hold. -/
theorem readBy_of_form {α : Type} {slot : Slot} {read : Operand → Except Flaw α} {write : α → Operand}
    (form : ∀ operand,
      (∃ value, operand = write value ∧ read operand = .ok value ∧ slot.canonical operand = operand) ∨
        (¬slot.Takes operand ∧ read operand = .error (.badOperand opcode slot.need operand)))
    (takes : ∀ value, slot.Takes (write value)) : slot.ReadBy opcode read write where
  taken := by
    intro operand taken
    rcases form operand with ⟨value, written, read, same⟩ | ⟨refused, _⟩
    · exact ⟨value, read, written.symm.trans same.symm⟩
    · exact absurd taken refused
  refused := by
    intro operand refused
    rcases form operand with ⟨value, rfl, _⟩ | ⟨_, failed⟩
    · exact absurd (takes value) refused
    · exact failed

theorem string_readBy : Slot.string.ReadBy opcode (readString opcode) .string := by
  refine readBy_of_form opcode (fun operand => ?_) fun _ => trivial
  cases operand with
  | string text => exact .inl ⟨text, rfl, rfl, rfl⟩
  | none | number | bool => exact .inr ⟨id, rfl⟩

theorem number_readBy : Slot.number.ReadBy opcode (readNumber opcode) .number := by
  refine readBy_of_form opcode (fun operand => ?_) fun _ => trivial
  cases operand with
  | number value => exact .inl ⟨value, rfl, rfl, rfl⟩
  | none | string | bool => exact .inr ⟨id, rfl⟩

theorem bool_readBy : Slot.bool.ReadBy opcode (readBool opcode) .bool := by
  refine readBy_of_form opcode (fun operand => ?_) fun _ => trivial
  cases operand with
  | bool value => exact .inl ⟨value, rfl, rfl, rfl⟩
  | none | string | number => exact .inr ⟨id, rfl⟩

theorem index_readBy : Slot.index.ReadBy opcode (readIndex opcode) writeIndex where
  taken := by
    rintro (_ | _ | x | _) takes
    case number =>
      obtain ⟨n, value⟩ := takes
      have whole := Number.hasValue_natCast.mp value
      exact ⟨_, readIndex_of_toNat? opcode whole, congrArg Operand.number (ofNat_clampIndex whole)⟩
    all_goals exact takes.elim
  refused := by
    rintro (_ | _ | x | _) refused
    case number =>
      have nothing : x.toNat? = none := by
        refine Option.eq_none_iff_forall_ne_some.mpr fun n whole => ?_
        exact refused ⟨n, Number.hasValue_natCast.mpr whole⟩
      unfold readIndex
      simp only [nothing]
      rfl
    all_goals rfl

theorem optionText_readBy : Slot.optionText.ReadBy opcode (readOptionText opcode) writeOptionText where
  taken := by
    rintro (_ | _ | x | _) takes
    case number =>
      unfold readOptionText
      by_cases none : x = noText
      · rw [none, if_pos rfl]
        exact ⟨_, rfl, by decide +kernel⟩
      · have whole : Slot.index.Takes (.number x) :=
          takes.resolve_left fun minus => none (minus.unique hasValue_noText (by decide))
        obtain ⟨index, read, written⟩ := (index_readBy opcode).taken whole
        rw [if_neg (fun same => none (Operand.number.inj same)), read]
        exact ⟨some index, rfl, written⟩
    all_goals exact takes.elim
  refused := by
    intro operand refused
    have number : operand ≠ .number noText := by
      rintro rfl
      exact refused (.inl hasValue_noText)
    have index : ¬Slot.index.Takes operand := by
      intro whole
      cases operand with
      | number x => exact refused (.inr whole)
      | none | string | bool => exact whole
    unfold readOptionText
    rw [if_neg number, (index_readBy opcode).refused index]
    rfl

end Slots

section Instructions

/-- The operand as which the one in that place is written, if it is read. -/
def canonicalOperand (slot? : Option Slot) (operand : Operand) : Operand :=
  match slot? with
  | some slot => slot.canonical operand
  | none => .none

variable {opcode : Opcode} {first second : Operand}

/-- If both operands will do, an instruction is read, and with it everything of them that matters. -/
theorem readInstruction_taken (takesFirst : ∀ slot ∈ (slotsOf opcode).1, slot.Takes first)
    (takesSecond : ∀ slot ∈ (slotsOf opcode).2, slot.Takes second) :
    ∃ instruction, readInstruction opcode first second = .ok instruction ∧ instruction.opcode = opcode ∧
      operandsOf instruction =
        (canonicalOperand (slotsOf opcode).1 first, canonicalOperand (slotsOf opcode).2 second) ∧
      instruction.mapIndex storedIndex = instruction := by
  have strings := string_readBy opcode
  have indices := index_readBy opcode
  cases opcode with
  | label | jumpTo | jumpIfFalse | runCommand | callFunction | pushVariable | storeVariable =>
    obtain ⟨text, read, written⟩ := strings.taken (takesFirst _ rfl)
    simp only [readInstruction, read]
    refine ⟨_, rfl, rfl, ?_, rfl⟩
    exact Prod.ext written rfl
  | runLine =>
    obtain ⟨index, read, written⟩ := indices.taken (takesFirst _ rfl)
    simp only [readInstruction, read]
    refine ⟨_, rfl, rfl, ?_, congrArg Instruction.runLine (storedIndex_of_readIndex read)⟩
    exact Prod.ext written rfl
  | pushString =>
    obtain ⟨index, read, written⟩ := indices.taken (takesFirst _ rfl)
    simp only [readInstruction, read]
    refine ⟨_, rfl, rfl, ?_, congrArg Instruction.pushString (storedIndex_of_readIndex read)⟩
    exact Prod.ext written rfl
  | addOption =>
    obtain ⟨text, read, written⟩ := (optionText_readBy .addOption).taken (takesFirst _ rfl)
    obtain ⟨destination, readBehind, writtenBehind⟩ := strings.taken (takesSecond _ rfl)
    simp only [readInstruction, read, readBehind]
    refine ⟨_, rfl, rfl, ?_, congrArg (Instruction.addOption · destination) (storedIndex_of_readOptionText read)⟩
    exact Prod.ext written writtenBehind
  | pushNumber =>
    obtain ⟨value, read, written⟩ := (number_readBy .pushNumber).taken (takesFirst _ rfl)
    simp only [readInstruction, read]
    refine ⟨_, rfl, rfl, ?_, rfl⟩
    exact Prod.ext written rfl
  | pushBool =>
    obtain ⟨value, read, written⟩ := (bool_readBy .pushBool).taken (takesFirst _ rfl)
    simp only [readInstruction, read]
    refine ⟨_, rfl, rfl, ?_, rfl⟩
    exact Prod.ext written rfl
  | jump | showOptions | pushNull | pop | stop | runNode => exact ⟨_, rfl, rfl, rfl, rfl⟩

theorem readInstruction_first {slot : Slot} (reads : (slotsOf opcode).1 = some slot) (refused : ¬slot.Takes first) :
    readInstruction opcode first second = .error (.badOperand opcode slot.need first) := by
  cases opcode with
  | label | jumpTo | jumpIfFalse | runCommand | callFunction | pushVariable | storeVariable =>
    cases reads
    rw [readInstruction, (string_readBy _).refused refused]
    rfl
  | runLine | pushString =>
    cases reads
    rw [readInstruction, (index_readBy _).refused refused]
    rfl
  | addOption =>
    cases reads
    rw [readInstruction, (optionText_readBy _).refused refused]
    rfl
  | pushNumber =>
    cases reads
    rw [readInstruction, (number_readBy _).refused refused]
    rfl
  | pushBool =>
    cases reads
    rw [readInstruction, (bool_readBy _).refused refused]
    rfl
  | jump | showOptions | pushNull | pop | stop | runNode => cases reads

/-- The second operand comes to be read only behind a first one that will do. -/
theorem readInstruction_second (takesFirst : ∀ slot ∈ (slotsOf opcode).1, slot.Takes first) {slot : Slot}
    (reads : (slotsOf opcode).2 = some slot) (refused : ¬slot.Takes second) :
    readInstruction opcode first second = .error (.badOperand opcode slot.need second) := by
  cases opcode with
  | addOption =>
    cases reads
    obtain ⟨text, read, _⟩ := (optionText_readBy .addOption).taken (takesFirst _ rfl)
    simp only [readInstruction, read, (string_readBy _).refused refused]
    rfl
  | _ => cases reads

end Instructions

namespace RawInstruction

variable {raw : RawInstruction} {flaw : Flaw}

/-- The opcode is known, and whatever it reads from the operands is there. -/
def Valid (raw : RawInstruction) : Prop :=
  ∃ opcode : Opcode, opcode.byte = raw.opcode ∧ (∀ slot ∈ (slotsOf opcode).1, slot.Takes raw.first) ∧
    ∀ slot ∈ (slotsOf opcode).2, slot.Takes raw.second

/-- What is wrong with an instruction: its opcode, or else the first one of its operands that will not do. -/
inductive HasFlaw (raw : RawInstruction) : Flaw → Prop
  | opcode (unknown : ∀ opcode : Opcode, opcode.byte ≠ raw.opcode) : HasFlaw raw (.unknownOpcode raw.opcode)
  | first {opcode : Opcode} {slot : Slot} (known : opcode.byte = raw.opcode) (reads : (slotsOf opcode).1 = some slot)
      (refused : ¬slot.Takes raw.first) : HasFlaw raw (.badOperand opcode slot.need raw.first)
  | second {opcode : Opcode} {slot : Slot} (known : opcode.byte = raw.opcode)
      (takesFirst : ∀ slot ∈ (slotsOf opcode).1, slot.Takes raw.first) (reads : (slotsOf opcode).2 = some slot)
      (refused : ¬slot.Takes raw.second) : HasFlaw raw (.badOperand opcode slot.need raw.second)

/-- The same instruction with nothing in the operands that its opcode does not read, and each index written in the one
way. -/
def canonical (raw : RawInstruction) : RawInstruction :=
  match Opcode.ofByte? raw.opcode with
  | none => raw
  | some opcode =>
    ⟨raw.opcode, canonicalOperand (slotsOf opcode).1 raw.first, canonicalOperand (slotsOf opcode).2 raw.second⟩

/-- The instruction is the one that is read, and is written as the canonical form of what it was read from. -/
structure StandsFor (raw : RawInstruction) (instruction : Instruction) : Prop where
  read : raw.toInstruction = .ok instruction
  written : ofInstruction instruction = raw.canonical
  kept : instruction.mapIndex storedIndex = instruction

theorem valid_or_hasFlaw (raw : RawInstruction) : raw.Valid ∨ ∃ flaw, raw.HasFlaw flaw := by
  by_cases known : ∃ opcode : Opcode, opcode.byte = raw.opcode
  · obtain ⟨opcode, byte⟩ := known
    by_cases takesFirst : ∀ slot ∈ (slotsOf opcode).1, slot.Takes raw.first
    · by_cases takesSecond : ∀ slot ∈ (slotsOf opcode).2, slot.Takes raw.second
      · exact .inl ⟨opcode, byte, takesFirst, takesSecond⟩
      · push Not at takesSecond
        obtain ⟨slot, reads, refused⟩ := takesSecond
        exact .inr ⟨_, .second byte takesFirst reads refused⟩
    · push Not at takesFirst
      obtain ⟨slot, reads, refused⟩ := takesFirst
      exact .inr ⟨_, .first byte reads refused⟩
  · push Not at known
    exact .inr ⟨_, .opcode known⟩

theorem standsFor_of_valid (valid : raw.Valid) : ∃ instruction, raw.StandsFor instruction := by
  obtain ⟨opcode, known, takesFirst, takesSecond⟩ := valid
  obtain ⟨instruction, read, same, operands, kept⟩ := readInstruction_taken takesFirst takesSecond
  have found := Opcode.ofByte?_eq_some.mpr known
  refine ⟨instruction, ?_, ?_, kept⟩
  · unfold toInstruction
    rw [found]
    exact read
  · unfold ofInstruction canonical
    rw [found, operands, same, known]

theorem toInstruction_of_hasFlaw (flawed : raw.HasFlaw flaw) : raw.toInstruction = .error flaw := by
  unfold toInstruction
  cases flawed with
  | opcode unknown =>
    have nothing : Opcode.ofByte? raw.opcode = none :=
      Option.eq_none_iff_forall_ne_some.mpr fun opcode found => unknown opcode (Opcode.ofByte?_eq_some.mp found)
    rw [nothing]
  | first known reads refused =>
    rw [Opcode.ofByte?_eq_some.mpr known]
    exact readInstruction_first reads refused
  | second known takesFirst reads refused =>
    rw [Opcode.ofByte?_eq_some.mpr known]
    exact readInstruction_second takesFirst reads refused

end RawInstruction

end Image

end Dialogue
