import Mathlib.Algebra.Group.Nat.Defs
import Dialogue.Image.Codec

/-!
Readers take back what writers wrote. `Reads` says so of one reader and one row of bytes, whatever stands behind
them, and is closed under sequencing, so the law of a compound form is put together from the laws of its parts.
Counts are words of sixty-four bits, hence every length in what is written must be one.
-/

namespace Dialogue.Image

variable {α β : Type}

/-- The reader takes exactly these bytes, whatever follows them, and answers the value. -/
def Reads (read : Reader α) (bytes : List UInt8) (value : α) : Prop :=
  ∀ rest, read (bytes ++ rest) = .ok (value, rest)

theorem bind_apply (first : Reader α) (next : α → Reader β) (bytes : List UInt8) :
    (first >>= next) bytes = (first bytes).bind fun pair => next pair.1 pair.2 := rfl

namespace Reads

theorem pure (value : α) : Reads (pure value) [] value := fun _ => rfl

theorem bind {first : Reader α} {next : α → Reader β} {bytes more : List UInt8} {value : α} {result : β}
    (start : Reads first bytes value) (continued : Reads (next value) more result) :
    Reads (first >>= next) (bytes ++ more) result := by
  intro rest
  have taken := start (more ++ rest)
  rw [List.append_assoc]
  rw [bind_apply, taken]
  exact continued rest

/-- The last reader of a sequence leaves no bytes for the return behind it. -/
theorem map {first : Reader α} {f : α → β} {bytes : List UInt8} {value : α} (start : Reads first bytes value) :
    Reads (do return f (← first)) bytes (f value) := by
  have returned : Reads (do return f (← first)) (bytes ++ []) (f value) := start.bind (Reads.pure (f value))
  rwa [List.append_nil] at returned

end Reads

section Varint

theorem toNat_ofNat_of_lt {n : Nat} (small : n < 256) : (UInt8.ofNat n).toNat = n := by
  rw [UInt8.toNat_ofNat', Nat.mod_eq_of_lt small]

/-- A varint is a byte, and a shorter varint behind it if the byte says so. -/
theorem readVarint_succ (lastLimit remaining : Nat) :
    readVarint lastLimit (remaining + 1) = (do
      let byte ← readByte
      if byte.toNat < 128 then
        if remaining = 0 ∧ lastLimit < byte.toNat then throw .longVarint else return byte.toNat
      else return byte.toNat - 128 + 128 * (← readVarint lastLimit remaining)) := by
  funext bytes
  cases bytes with
  | nil => rfl
  | cons byte behind =>
    rw [readVarint, bind_apply]
    dsimp only [readByte, Except.bind]
    split
    · split <;> rfl
    · rw [bind_apply]
      cases readVarint lastLimit remaining behind <;> rfl

/-- A varint of several bytes reads back if its value fits so many bytes, the last one as far as its limit. -/
theorem reads_varint {lastLimit : Nat} (limited : lastLimit < 128) :
    ∀ (remaining n : Nat), n < (lastLimit + 1) * 128 ^ remaining →
      Reads (readVarint lastLimit (remaining + 1)) (writeVarint n) n := by
  intro remaining
  induction remaining with
  | zero =>
    intro n bound rest
    rw [Nat.pow_zero, Nat.mul_one] at bound
    rw [writeVarint, if_pos (by omega)]
    simp only [List.cons_append, List.nil_append, readVarint]
    rw [toNat_ofNat_of_lt (by omega), if_pos (by omega), if_neg (by omega)]
  | succ remaining ih =>
    -- A byte less is left for what seven bits more leave of the value.
    intro n bound rest
    rw [writeVarint]
    by_cases short : n < 128
    · rw [if_pos short]
      simp only [List.cons_append, List.nil_append]
      rw [readVarint, toNat_ofNat_of_lt (by omega), if_pos short, if_neg (by omega)]
    · have high : n / 128 < (lastLimit + 1) * 128 ^ remaining := by
        rw [Nat.pow_succ, ← Nat.mul_assoc] at bound
        exact Nat.div_lt_of_lt_mul (by rw [Nat.mul_comm]; exact bound)
      rw [if_neg short]
      simp only [List.cons_append]
      rw [readVarint, toNat_ofNat_of_lt (by omega), if_neg (by omega), ih (n / 128) high rest]
      simp only [Except.map, Except.ok.injEq, Prod.mk.injEq, and_true]
      omega

/-- A length that a program can have: a word of sixty-four bits. -/
def IsCount (n : Nat) : Prop := n < 2 ^ 64
deriving Decidable

theorem reads_count {n : Nat} (count : IsCount n) : Reads readCount (writeVarint n) n :=
  reads_varint (by decide) 9 n (lt_of_lt_of_eq count (by decide))

theorem reads_tag {n : Nat} (small : n < 128) : Reads readTag (writeVarint n) n :=
  reads_varint (by decide) 4 n (by omega)

end Varint

section Basic

theorem reads_byte (byte : UInt8) : Reads readByte [byte] byte := fun _ => rfl

theorem reads_bytes (bytes : List UInt8) : Reads (readBytes bytes.length) bytes bytes := by
  intro rest
  unfold readBytes
  rw [if_neg (by simp), List.take_left, List.drop_left]

theorem ofUtf8?_utf8 (text : String) : ofUtf8? (utf8 text) = some text := by
  unfold ofUtf8? utf8 String.fromUTF8?
  exact dif_pos text.isValidUTF8

theorem reads_text {text : String} (count : IsCount (utf8 text).length) :
    Reads readText (writeText text) text := by
  unfold readText writeText
  apply (reads_count count).bind
  intro rest
  have bytes := reads_bytes (utf8 text) rest
  simp only [StateT.bind, bind, bytes, Except.bind, ofUtf8?_utf8]
  rfl

theorem littleEndian_length (n count : Nat) : (littleEndian n count).length = count := by
  induction count generalizing n with
  | zero => rfl
  | succ count ih => rw [littleEndian, List.length_cons, ih]

/-- So many bytes hold a number up to multiples of their weight. -/
theorem ofLittleEndian_littleEndian (n count : Nat) : ofLittleEndian (littleEndian n count) = n % 256 ^ count := by
  induction count generalizing n with
  | zero => rw [littleEndian, ofLittleEndian, Nat.pow_zero, Nat.mod_one]
  | succ count ih =>
    rw [littleEndian, ofLittleEndian, ih, toNat_ofNat_of_lt (Nat.mod_lt n (by decide)), Nat.pow_succ,
      Nat.mul_comm _ 256, Nat.mod_mul]

/-- Numbers are stored by their words, so even a NaN keeps its payload. -/
theorem reads_number (value : Number) : Reads readNumberWord (writeNumber value) value := by
  unfold readNumberWord writeNumber
  have word : (⟨UInt64.ofNat (ofLittleEndian (littleEndian value.bits.toNat 8))⟩ : Number) = value := by
    have bound := value.bits.toNat_lt
    rw [ofLittleEndian_littleEndian, Nat.mod_eq_of_lt (lt_of_lt_of_eq bound (by decide)), UInt64.ofNat_toNat]
  have bytes := reads_bytes (littleEndian value.bits.toNat 8)
  rw [littleEndian_length] at bytes
  have sequence := bytes.map (f := fun found => (⟨UInt64.ofNat (ofLittleEndian found)⟩ : Number))
  rwa [word] at sequence

theorem reads_flag (value : Bool) : Reads readFlag (writeFlag value) value := by
  intro rest
  cases value <;> rfl

end Basic

section Lists

variable {read : Reader α} {write : α → List UInt8}

theorem reads_items (items : List α) (each : ∀ item ∈ items, Reads read (write item) item) :
    Reads (readItems read items.length) (items.flatMap write) items := by
  induction items with
  | nil => exact Reads.pure []
  | cons item rest ih =>
    rw [List.flatMap_cons, List.length_cons, readItems]
    have first := each item List.mem_cons_self
    have others := ih fun other later => each other (List.mem_cons_of_mem item later)
    exact first.bind (others.map (f := fun found => item :: found))

theorem reads_list {items : List α} (count : IsCount items.length)
    (each : ∀ item ∈ items, Reads read (write item) item) : Reads (readList read) (writeList write items) items :=
  (reads_count count).bind (reads_items items each)

end Lists

section Forms

def TextFits (text : String) : Prop := IsCount (utf8 text).length
deriving Decidable

/-- A list whose length is a count, and so on in its items. -/
def ListFits (fits : α → Prop) (items : List α) : Prop := IsCount items.length ∧ ∀ item ∈ items, fits item

instance (fits : α → Prop) [DecidablePred fits] : DecidablePred (ListFits fits) := fun items =>
  inferInstanceAs (Decidable (IsCount items.length ∧ ∀ item ∈ items, fits item))

def Operand.Fits : Operand → Prop
  | .string text => TextFits text
  | .none | .number _ | .bool _ => True

instance : DecidablePred Operand.Fits
  | .string text => inferInstanceAs (Decidable (TextFits text))
  | .none | .number _ | .bool _ => .isTrue trivial

def RawInstruction.Fits (raw : RawInstruction) : Prop := raw.first.Fits ∧ raw.second.Fits
deriving Decidable

def RawNode.Fits (raw : RawNode) : Prop :=
  TextFits raw.name ∧ ListFits TextFits raw.tags ∧ ListFits RawInstruction.Fits raw.instructions
deriving Decidable

/-- Every length in a program is a word of sixty-four bits, as the lengths of all texts and lists in memory are. -/
def RawProgram.Fits (raw : RawProgram) : Prop :=
  TextFits raw.name ∧ ListFits TextFits raw.strings ∧ ListFits RawNode.Fits raw.nodes
deriving Decidable

theorem reads_operand {operand : Operand} (fits : operand.Fits) :
    Reads readOperand (writeOperand operand) operand := by
  cases operand with
  | none =>
    rw [writeOperand, ← List.append_nil (writeVarint 0)]
    exact (reads_tag (n := 0) (by decide)).bind (Reads.pure Operand.none)
  | string text => exact (reads_tag (n := 1) (by decide)).bind (reads_text fits).map
  | number value => exact (reads_tag (n := 2) (by decide)).bind (reads_number value).map
  | bool value => exact (reads_tag (n := 3) (by decide)).bind (reads_flag value).map

theorem reads_instruction {raw : RawInstruction} (fits : raw.Fits) :
    Reads readRawInstruction (writeInstruction raw) raw :=
  (reads_byte raw.opcode).bind ((reads_operand fits.1).bind (reads_operand fits.2).map)

theorem reads_node {raw : RawNode} (fits : raw.Fits) : Reads readRawNode (writeNode raw) raw := by
  obtain ⟨name, tags, instructions⟩ := fits
  have named := reads_text name
  have tagged := reads_list tags.1 fun tag member => reads_text (tags.2 tag member)
  have listed := reads_list instructions.1 fun raw member => reads_instruction (instructions.2 raw member)
  unfold writeNode
  rw [List.append_assoc]
  exact named.bind (tagged.bind listed.map)

theorem reads_body {raw : RawProgram} (fits : raw.Fits) : Reads readBody (writeBody raw) raw := by
  obtain ⟨name, strings, nodes⟩ := fits
  have named := reads_text name
  have tabled := reads_list strings.1 fun text member => reads_text (strings.2 text member)
  have listed := reads_list nodes.1 fun raw member => reads_node (nodes.2 raw member)
  unfold writeBody
  rw [List.append_assoc]
  exact named.bind (tabled.bind listed.map)

end Forms

end Dialogue.Image
