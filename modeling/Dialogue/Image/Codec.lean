import Dialogue.Image.Raw

/-!
Bytes of a raw program. Counts and tags of operands are varints, seven bits per byte from the lowest up; texts are
UTF-8 behind their length, lists stand behind theirs, and numbers are their words from the lowest byte up. Readers
take what they need from the front and leave the rest.
-/

namespace Dialogue.Image

inductive BodyError where
  | endOfInput
  | longVarint
  | badBool
  | badUtf8
  | unknownTag
deriving DecidableEq

def BodyError.message : BodyError → String
  | .endOfInput => "Hit the end of buffer, expected more data"
  | .longVarint => "Found a varint that didn't terminate. Is the usize too big for this platform?"
  | .badBool => "Found a bool that wasn't 0 or 1"
  | .badUtf8 => "Tried to parse invalid utf-8"
  | .unknownTag => "Serde Deserialization Error"

abbrev Reader := StateT (List UInt8) (Except BodyError)

def writeVarint (n : Nat) : List UInt8 :=
  if n < 128 then [UInt8.ofNat n] else UInt8.ofNat (n % 128 + 128) :: writeVarint (n / 128)
termination_by n
decreasing_by omega

/-- Reads a varint of at most so many bytes, the last of which may be no larger than `lastLimit`. -/
def readVarint (lastLimit : Nat) : Nat → Reader Nat
  | 0, _ => .error .longVarint
  | _ + 1, [] => .error .endOfInput
  | remaining + 1, byte :: rest =>
    if byte.toNat < 128 then
      if remaining = 0 ∧ lastLimit < byte.toNat then .error .longVarint else .ok (byte.toNat, rest)
    else (readVarint lastLimit remaining rest).map fun (high, after) => (byte.toNat - 128 + 128 * high, after)

/-- A count has sixty-four bits. -/
def readCount : Reader Nat := readVarint 1 10

/-- The tag of an operand has thirty-two bits. -/
def readTag : Reader Nat := readVarint 15 5

def readByte : Reader UInt8
  | [] => .error .endOfInput
  | byte :: rest => .ok (byte, rest)

def readBytes (count : Nat) : Reader (List UInt8) := fun bytes =>
  if bytes.length < count then .error .endOfInput else .ok (bytes.take count, bytes.drop count)

def utf8 (text : String) : List UInt8 := text.toUTF8.data.toList

def ofUtf8? (bytes : List UInt8) : Option String := String.fromUTF8? ⟨bytes.toArray⟩

def writeText (text : String) : List UInt8 := writeVarint (utf8 text).length ++ utf8 text

def readText : Reader String := do
  let count ← readCount
  let bytes ← readBytes count
  match ofUtf8? bytes with
  | some text => return text
  | none => throw .badUtf8

/-- So many bytes of a number from the lowest up. -/
def littleEndian (n : Nat) : Nat → List UInt8
  | 0 => []
  | count + 1 => UInt8.ofNat (n % 256) :: littleEndian (n / 256) count

def ofLittleEndian : List UInt8 → Nat
  | [] => 0
  | byte :: rest => byte.toNat + 256 * ofLittleEndian rest

def writeNumber (value : Number) : List UInt8 := littleEndian value.bits.toNat 8

def readNumberWord : Reader Number := do
  let bytes ← readBytes 8
  return ⟨UInt64.ofNat (ofLittleEndian bytes)⟩

def writeFlag (value : Bool) : List UInt8 := [if value then 1 else 0]

def readFlag : Reader Bool := do
  let byte ← readByte
  if byte = 0 then return false
  else if byte = 1 then return true
  else throw .badBool

def writeList {α : Type} (write : α → List UInt8) (items : List α) : List UInt8 :=
  writeVarint items.length ++ items.flatMap write

def readItems {α : Type} (read : Reader α) : Nat → Reader (List α)
  | 0 => return []
  | count + 1 => do
    let item ← read
    let rest ← readItems read count
    return item :: rest

def readList {α : Type} (read : Reader α) : Reader (List α) := do
  let count ← readCount
  readItems read count

def writeOperand : Operand → List UInt8
  | .none => writeVarint 0
  | .string text => writeVarint 1 ++ writeText text
  | .number value => writeVarint 2 ++ writeNumber value
  | .bool value => writeVarint 3 ++ writeFlag value

def readOperand : Reader Operand := do
  match ← readTag with
  | 0 => return .none
  | 1 => return .string (← readText)
  | 2 => return .number (← readNumberWord)
  | 3 => return .bool (← readFlag)
  | _ => throw .unknownTag

def writeInstruction (raw : RawInstruction) : List UInt8 :=
  raw.opcode :: writeOperand raw.first ++ writeOperand raw.second

def readRawInstruction : Reader RawInstruction := do
  let opcode ← readByte
  let first ← readOperand
  let second ← readOperand
  return ⟨opcode, first, second⟩

def writeNode (raw : RawNode) : List UInt8 :=
  writeText raw.name ++ writeList writeText raw.tags ++ writeList writeInstruction raw.instructions

def readRawNode : Reader RawNode := do
  let name ← readText
  let tags ← readList readText
  let instructions ← readList readRawInstruction
  return ⟨name, tags, instructions⟩

def writeBody (raw : RawProgram) : List UInt8 :=
  writeText raw.name ++ writeList writeText raw.strings ++ writeList writeNode raw.nodes

def readBody : Reader RawProgram := do
  let name ← readText
  let strings ← readList readText
  let nodes ← readList readRawNode
  return ⟨name, strings, nodes⟩

end Dialogue.Image
