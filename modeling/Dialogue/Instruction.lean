import Dialogue.Number.Shortest
import Dialogue.Opcode
import Dialogue.Text.Quoted

/-!
Instructions of a compiled node. String indices refer to the string table of the program, and labels to the
node that holds the instruction.
-/

namespace Dialogue

inductive Instruction where
  /-- A place to jump to, which does nothing itself. -/
  | label (name : String)
  | jumpTo (label : String)
  /-- Jumps to the label that the top of the stack names and leaves it there. -/
  | jump
  /-- Jumps if the top of the stack is false, and leaves it there either way. -/
  | jumpIfFalse (label : String)
  | runLine (index : UInt64)
  | runCommand (text : String)
  /-- Queues an option. Without a text it shows its destination, and is taken unasked when it is alone. -/
  | addOption (text : Option UInt64) (destination : String)
  | showOptions
  | pushString (index : UInt64)
  | pushNumber (value : Number)
  | pushBool (value : Bool)
  | pushNull
  | pop
  | callFunction (name : String)
  | pushVariable (name : String)
  /-- Stores the number on top of the stack and leaves it there. -/
  | storeVariable (name : String)
  | stop
  /-- Enters the node that the top of the stack names. -/
  | runNode
deriving DecidableEq

namespace Instruction

def opcode : Instruction → Opcode
  | .label _ => .label
  | .jumpTo _ => .jumpTo
  | .jump => .jump
  | .jumpIfFalse _ => .jumpIfFalse
  | .runLine _ => .runLine
  | .runCommand _ => .runCommand
  | .addOption _ _ => .addOption
  | .showOptions => .showOptions
  | .pushString _ => .pushString
  | .pushNumber _ => .pushNumber
  | .pushBool _ => .pushBool
  | .pushNull => .pushNull
  | .pop => .pop
  | .callFunction _ => .callFunction
  | .pushVariable _ => .pushVariable
  | .storeVariable _ => .storeVariable
  | .stop => .stop
  | .runNode => .runNode

def mnemonic (instruction : Instruction) : String := instruction.opcode.mnemonic

/-- The label that a jump with a fixed target goes to. -/
def jumpTarget? : Instruction → Option String
  | .jumpTo target | .jumpIfFalse target => some target
  | _ => none

/-- The entry of the string table that the instruction reads. -/
def stringIndex? : Instruction → Option UInt64
  | .runLine index | .pushString index => some index
  | .addOption text _ => text
  | _ => none

/-- Sameness up to numeric equality: two zeros agree whatever their sign, and a NaN agrees with nothing. -/
def agrees : Instruction → Instruction → Bool
  | .pushNumber x, .pushNumber y => x.equals y
  | x, y => x = y

def describe (instruction : Instruction) : String :=
  let withOperand (operand : String) := s!"{instruction.mnemonic}({operand})"
  match instruction with
  | .label text | .jumpTo text | .jumpIfFalse text | .runCommand text | .callFunction text
  | .pushVariable text | .storeVariable text => withOperand (Text.describe text)
  | .runLine index | .pushString index => withOperand (toString index)
  | .pushNumber value => withOperand value.describe
  | .pushBool value => withOperand (toString value)
  | .addOption text destination =>
    let shown := match text with
      | some index => s!"Some({index})"
      | none => "None"
    s!"{instruction.mnemonic} \x7b text: {shown}, destination: {Text.describe destination} \x7d"
  | .jump | .showOptions | .pushNull | .pop | .stop | .runNode => instruction.mnemonic

end Instruction

end Dialogue
