import Dialogue.Number.Rounding
import Dialogue.Program

/-!
The untyped form in which programs are stored: an opcode byte and two operands of any kind per instruction. A raw
program is checked while it becomes a program, in the order in which it is written; names that return are found
last.
-/

namespace Dialogue.Image

inductive Operand where
  | none
  | string (text : String)
  | number (value : Number)
  | bool (value : Bool)
deriving DecidableEq

def Operand.describe : Operand → String
  | .none => "None"
  | .string text => s!"String({Text.describe text})"
  | .number value => s!"Number({value.describe})"
  | .bool value => s!"Bool({value})"

structure RawInstruction where
  opcode : UInt8
  first : Operand
  second : Operand
deriving DecidableEq

structure RawNode where
  name : String
  tags : List String
  instructions : List RawInstruction
deriving DecidableEq

structure RawProgram where
  name : String
  strings : List String
  nodes : List RawNode
deriving DecidableEq

/-- The number minus one, which stands for an option without a text. -/
def noText : Number := .ofWord true (1023 * Number.fractionCount)

/-- A string index is stored as the nearest number. -/
def writeIndex (index : UInt64) : Operand := .number (.ofNat index.toNat)

def writeOptionText : Option UInt64 → Operand
  | some index => writeIndex index
  | none => .number noText

def operandsOf : Instruction → Operand × Operand
  | .label text | .jumpTo text | .jumpIfFalse text | .runCommand text | .callFunction text
  | .pushVariable text | .storeVariable text => (.string text, .none)
  | .runLine index | .pushString index => (writeIndex index, .none)
  | .addOption text destination => (writeOptionText text, .string destination)
  | .pushNumber value => (.number value, .none)
  | .pushBool value => (.bool value, .none)
  | .jump | .showOptions | .pushNull | .pop | .stop | .runNode => (.none, .none)

def RawInstruction.ofInstruction (instruction : Instruction) : RawInstruction :=
  ⟨instruction.opcode.byte, (operandsOf instruction).1, (operandsOf instruction).2⟩

def RawNode.ofNode (node : Node) : RawNode :=
  ⟨node.name, node.tags, node.instructions.map .ofInstruction⟩

def RawProgram.ofProgram (program : Program) : RawProgram :=
  ⟨program.name, program.strings, program.nodes.map .ofNode⟩

/-- What an instruction needs in place of an operand. -/
inductive Need where
  | string
  | index
  | number
  | bool
deriving DecidableEq

def Need.text : Need → String
  | .string => "a string operand"
  | .index => "a string table index"
  | .number => "a number"
  | .bool => "a bool"

inductive Flaw where
  | unknownOpcode (byte : UInt8)
  | badOperand (opcode : Opcode) (need : Need) (found : Operand)
deriving DecidableEq

def Flaw.message : Flaw → String
  | .unknownOpcode byte => s!"unknown opcode {byte}"
  | .badOperand opcode need found => s!"{opcode.mnemonic} expects {need.text}, got {found.describe}"

def readString (opcode : Opcode) : Operand → Except Flaw String
  | .string text => .ok text
  | other => .error (.badOperand opcode .string other)

/-- The largest string index, in place of anything beyond it. -/
def clampIndex (n : Nat) : UInt64 := UInt64.ofNat (min n (UInt64.size - 1))

/-- A string index is a natural number. -/
def readIndex (opcode : Opcode) (operand : Operand) : Except Flaw UInt64 :=
  match operand with
  | .number value =>
    match value.toNat? with
    | some n => .ok (clampIndex n)
    | none => .error (.badOperand opcode .index operand)
  | _ => .error (.badOperand opcode .index operand)

def readOptionText (opcode : Opcode) (operand : Operand) : Except Flaw (Option UInt64) :=
  if operand = .number noText then .ok none else (readIndex opcode operand).map some

def readNumber (opcode : Opcode) : Operand → Except Flaw Number
  | .number value => .ok value
  | other => .error (.badOperand opcode .number other)

def readBool (opcode : Opcode) : Operand → Except Flaw Bool
  | .bool value => .ok value
  | other => .error (.badOperand opcode .bool other)

/-- The instruction of that opcode with these operands; those that it does not need may be anything. -/
def readInstruction (opcode : Opcode) (first second : Operand) : Except Flaw Instruction :=
  match opcode with
  | .label => (readString opcode first).map .label
  | .jumpTo => (readString opcode first).map .jumpTo
  | .jump => .ok .jump
  | .jumpIfFalse => (readString opcode first).map .jumpIfFalse
  | .runLine => (readIndex opcode first).map .runLine
  | .runCommand => (readString opcode first).map .runCommand
  | .addOption => do
    let text ← readOptionText opcode first
    let destination ← readString opcode second
    return .addOption text destination
  | .showOptions => .ok .showOptions
  | .pushString => (readIndex opcode first).map .pushString
  | .pushNumber => (readNumber opcode first).map .pushNumber
  | .pushBool => (readBool opcode first).map .pushBool
  | .pushNull => .ok .pushNull
  | .pop => .ok .pop
  | .callFunction => (readString opcode first).map .callFunction
  | .pushVariable => (readString opcode first).map .pushVariable
  | .storeVariable => (readString opcode first).map .storeVariable
  | .stop => .ok .stop
  | .runNode => .ok .runNode

def RawInstruction.toInstruction (raw : RawInstruction) : Except Flaw Instruction :=
  match Opcode.ofByte? raw.opcode with
  | none => .error (.unknownOpcode raw.opcode)
  | some opcode => readInstruction opcode raw.first raw.second

inductive RawError where
  | flawed (node : String) (position : Nat) (flaw : Flaw)
  | duplicateNode (duplicate : DuplicateNode)
deriving DecidableEq

def RawError.message : RawError → String
  | .flawed node position flaw => s!"node '{node}', instruction {position}: {flaw.message}"
  | .duplicateNode duplicate => duplicate.message

/-- Reads instructions; `position` is that of the first of them in the node. -/
def readInstructions (node : String) (position : Nat) : List RawInstruction → Except RawError (List Instruction)
  | [] => .ok []
  | raw :: rest =>
    match raw.toInstruction with
    | .error flaw => .error (.flawed node position flaw)
    | .ok instruction => (readInstructions node (position + 1) rest).map (instruction :: ·)

def RawNode.toNode (raw : RawNode) : Except RawError Node :=
  (readInstructions raw.name 0 raw.instructions).map fun instructions => ⟨raw.name, raw.tags, instructions⟩

def RawProgram.toProgram (raw : RawProgram) : Except RawError Program := do
  let nodes ← raw.nodes.mapM RawNode.toNode
  match Program.ofNodes raw.name raw.strings nodes with
  | .ok program => .ok program
  | .error duplicate => .error (.duplicateNode duplicate)

end Dialogue.Image
