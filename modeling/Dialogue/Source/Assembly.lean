import Dialogue.Program
import Dialogue.Source.Token
import Dialogue.Text.Digits
import Dialogue.Text.Lines

/-!
Assembling a program from its source text. Every line holds one directive or one instruction, and is read on its
own against a draft of the program; the first line that does not fit ends the reading.
-/

namespace Dialogue.Source

inductive Defect where
  | misspelled (misspelling : Misspelling)
  | programOperands
  | stringOperands
  | invalidIndex (text : String)
  | quotedIndex
  | stringOrder (found : UInt64) (expected : Nat)
  | nodeOperands
  | emptyNodeName
  | duplicateNode (duplicate : DuplicateNode)
  | outsideNode
  | quotedHead
  | unknownInstruction (word : String)
  | operandCount (opcode : Opcode) (found : Nat)
  | invalidNumber (text : String)
  | invalidBool (text : String)
deriving DecidableEq

def operandsOf : Opcode → Nat
  | .addOption => 2
  | .jump | .showOptions | .pushNull | .pop | .stop | .runNode => 0
  | _ => 1

def Defect.message : Defect → String
  | .misspelled .unterminated => "unterminated string"
  | .misspelled (.unknownEscape letter) => s!"unknown escape sequence: \\{letter}"
  | .programOperands => "program takes exactly one operand"
  | .stringOperands => "expected: string <index> \"<text>\""
  | .invalidIndex text => s!"invalid string index '{text}'"
  | .quotedIndex => "string index must be a number"
  | .stringOrder found expected => s!"string {found} declared out of order, expected {expected}"
  | .nodeOperands => "expected: node <name>:"
  | .emptyNodeName => "node name cannot be empty"
  | .duplicateNode duplicate => duplicate.message
  | .outsideNode => "instruction outside of a node"
  | .quotedHead => "expected a directive or instruction"
  | .unknownInstruction word => s!"unknown instruction '{word}'"
  | .operandCount opcode found => s!"{opcode.mnemonic} takes {operandsOf opcode} operand(s), got {found}"
  | .invalidNumber text => s!"invalid number '{text}'"
  | .invalidBool text => s!"invalid bool '{text}'"

/-- A defect of a line, in the given column of it. -/
abbrev Located (α : Type) := Except (Nat × Defect) α

/-- A string index is a bare word of digits. -/
def readIndex (token : Token) : Located UInt64 :=
  match token.word with
  | .quoted _ => .error (token.column, .quotedIndex)
  | .bare text =>
    match Text.readWord? text.toList with
    | some index => .ok index
    | none => .error (token.column, .invalidIndex text)

def readNumber (token : Token) : Located Number :=
  match Number.read? token.text.toList with
  | some value => .ok value
  | none => .error (token.column, .invalidNumber token.text)

def readBool (token : Token) : Located Bool :=
  if token.text = "true" then .ok true
  else if token.text = "false" then .ok false
  else .error (token.column, .invalidBool token.text)

/-- The text of an option is an index, or a bare dash for none. -/
def readOptionText (token : Token) : Located (Option UInt64) :=
  if token.word = .bare "-" then .ok none else (readIndex token).map some

/-- The instruction of that opcode with these operands; `column` is where its mnemonic stands. -/
def readInstruction (column : Nat) (opcode : Opcode) (operands : List Token) : Located Instruction :=
  match opcode, operands with
  | .label, [name] => .ok (.label name.text)
  | .jumpTo, [target] => .ok (.jumpTo target.text)
  | .jump, [] => .ok .jump
  | .jumpIfFalse, [target] => .ok (.jumpIfFalse target.text)
  | .runLine, [index] => (readIndex index).map .runLine
  | .runCommand, [text] => .ok (.runCommand text.text)
  | .addOption, [text, destination] => (readOptionText text).map (.addOption · destination.text)
  | .showOptions, [] => .ok .showOptions
  | .pushString, [index] => (readIndex index).map .pushString
  | .pushNumber, [number] => (readNumber number).map .pushNumber
  | .pushBool, [bool] => (readBool bool).map .pushBool
  | .pushNull, [] => .ok .pushNull
  | .pop, [] => .ok .pop
  | .callFunction, [name] => .ok (.callFunction name.text)
  | .pushVariable, [name] => .ok (.pushVariable name.text)
  | .storeVariable, [name] => .ok (.storeVariable name.text)
  | .stop, [] => .ok .stop
  | .runNode, [] => .ok .runNode
  | _, _ => .error (column, .operandCount opcode operands.length)

/-- A bare text without the colon at its end, if there is one. -/
def dropColon (text : String) : String :=
  if text.toList.getLast? = some ':' then String.ofList text.toList.dropLast else text

/-- The name in a node header. The colon behind it is glued to a bare name or stands alone, or is left away. -/
def headerName? : List Token → Option String
  | [name] =>
    match name.word with
    | .bare text => some (dropColon text)
    | .quoted text => some text
  | [name, colon] => if colon.word = .bare ":" then some name.text else none
  | _ => none

/-- The name in the header of a node, whose directive stands in the given column. -/
def readNodeName (column : Nat) (operands : List Token) : Located String :=
  match headerName? operands with
  | none => .error (column, .nodeOperands)
  | some name => if name = "" then .error (column, .emptyNodeName) else .ok name

/-- What the lines so far have declared; the latest node comes first. -/
structure Draft where
  name : String
  strings : List String
  nodes : List Node

namespace Draft

def empty : Draft := ⟨"", [], []⟩

def editNode (draft : Draft) (column : Nat) (edit : Node → Node) : Located Draft :=
  match draft.nodes with
  | [] => .error (column, .outsideNode)
  | node :: earlier => .ok { draft with nodes := edit node :: earlier }

def addWords (draft : Draft) : List Token → Located Draft
  | [] => .ok draft
  | ⟨column, .quoted _⟩ :: _ => .error (column, .quotedHead)
  | ⟨column, .bare head⟩ :: operands =>
    if head = "program" then
      match operands with
      | [name] => .ok { draft with name := name.text }
      | _ => .error (column, .programOperands)
    else if head = "string" then
      match operands with
      | [index, text] => do
        let index ← readIndex index
        if index.toNat = draft.strings.length then .ok { draft with strings := draft.strings ++ [text.text] }
        else .error (column, .stringOrder index draft.strings.length)
      | _ => .error (column, .stringOperands)
    else if head = "node" then do
      let name ← readNodeName column operands
      if draft.nodes.any (·.name = name) then .error (column, .duplicateNode ⟨name⟩)
      else .ok { draft with nodes := ⟨name, [], []⟩ :: draft.nodes }
    else if head = "tags" then
      draft.editNode column fun node => { node with tags := node.tags ++ operands.map Token.text }
    else
      match Opcode.ofMnemonic? head with
      | none => .error (column, .unknownInstruction head)
      | some opcode => do
        let instruction ← readInstruction column opcode operands
        draft.editNode column fun node => { node with instructions := node.instructions ++ [instruction] }

def addLine (draft : Draft) (line : List Char) : Located Draft :=
  match tokenize 1 line with
  | .error (column, misspelling) => .error (column, .misspelled misspelling)
  | .ok tokens => draft.addWords tokens

end Draft

/-- A defect with its line and column, both counted from one. -/
structure AssemblyError where
  line : Nat
  column : Nat
  defect : Defect
deriving DecidableEq

def AssemblyError.message (error : AssemblyError) : String :=
  s!"{error.line}:{error.column}: {error.defect.message}"

/-- Reads lines into the draft; `number` is that of the first of them. -/
def Draft.addLines (number : Nat) (draft : Draft) : List (List Char) → Except AssemblyError Draft
  | [] => .ok draft
  | line :: rest =>
    match draft.addLine line with
    | .error (column, defect) => .error ⟨number, column, defect⟩
    | .ok next => next.addLines (number + 1) rest

/-- The program of a draft. A draft made of lines holds no name twice, so the error, which has no place in the
source, does not occur then. -/
def Draft.finish (draft : Draft) : Except AssemblyError Program :=
  match Program.ofNodes draft.name draft.strings draft.nodes.reverse with
  | .ok program => .ok program
  | .error duplicate => .error ⟨0, 0, .duplicateNode duplicate⟩

/-- Assembles a source text, or points at its first line that does not fit. -/
def assemble (source : String) : Except AssemblyError Program :=
  match Draft.empty.addLines 1 (Text.lines source.toList) with
  | .error error => .error error
  | .ok draft => draft.finish

end Dialogue.Source
