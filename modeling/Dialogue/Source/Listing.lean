import Dialogue.Source.Assembly

/-!
The listing of a program: its source text in a fixed layout. Names are bare where a bare word says the same, each
instruction is followed by its position in a comment, and one that reads the string table also by the text it
reads.
-/

namespace Dialogue.Source

/-- Whether a text may stand bare wherever a name is expected. -/
def isPlainName (text : List Char) : Bool :=
  !text.isEmpty && text.head? != some '#' && text.getLast? != some ':' && text != ['-'] && text.all isBare

def writeName (name : String) : List Char :=
  if isPlainName name.toList then name.toList else Text.quote name.toList

def writeIndex (index : UInt64) : List Char := Text.digits index.toNat

def writeOptionText : Option UInt64 → List Char
  | some index => writeIndex index
  | none => ['-']

def writeOperands : Instruction → List (List Char)
  | .label name | .jumpTo name | .jumpIfFalse name | .callFunction name | .pushVariable name
  | .storeVariable name => [writeName name]
  | .runLine index | .pushString index => [writeIndex index]
  | .runCommand text => [Text.quote text.toList]
  | .addOption text destination => [writeOptionText text, writeName destination]
  | .pushNumber value => [value.text.toList]
  | .pushBool value => [if value then "true".toList else "false".toList]
  | .jump | .showOptions | .pushNull | .pop | .stop | .runNode => []

def joinWords (words : List (List Char)) : List Char := [' '].intercalate words

def writeInstruction (instruction : Instruction) : List Char :=
  joinWords (instruction.mnemonic.toList :: writeOperands instruction)

/-- Fills up with spaces behind the text to at least that width. -/
def padRight (width : Nat) (text : List Char) : List Char := text ++ List.replicate (width - text.length) ' '

/-- The digits of a position, at least four of them. -/
def writePosition (position : Nat) : List Char :=
  let digits := Text.digits position
  List.replicate (4 - digits.length) '0' ++ digits

/-- What the comment of an instruction says about the string table. -/
def writeNote (program : Program) (instruction : Instruction) : List Char :=
  match instruction.stringIndex? with
  | none => []
  | some index =>
    ' ' :: match program.strings[index.toNat]? with
      | some text => Text.quote text.toList
      | none => "<missing string>".toList

/-- Labels stand further left than the instructions between them. -/
def margin : Instruction → List Char
  | .label _ => [' ', ' ']
  | _ => [' ', ' ', ' ', ' ']

def instructionLine (program : Program) (position : Nat) (instruction : Instruction) : List Char :=
  margin instruction ++ padRight 32 (writeInstruction instruction) ++ " # ".toList ++ writePosition position ++
    writeNote program instruction

/-- A node header, its tags if it has any, and its instructions, behind an empty line. -/
def nodeLines (program : Program) (node : Node) : List (List Char) :=
  let header := "node ".toList ++ writeName node.name ++ [':']
  let tags := if node.tags.isEmpty then [] else [joinWords ("    tags".toList :: node.tags.map writeName)]
  [] :: header :: tags ++
    node.instructions.zipIdx.map fun (instruction, position) => instructionLine program position instruction

def rule : List Char := "# ".toList ++ List.replicate 40 '═'

def headLines (program : Program) : List (List Char) :=
  [rule, s!"# {program.nodes.length} node(s), {program.strings.length} string(s)".toList, rule,
    joinWords ["program".toList, Text.quote program.name.toList]]

def stringLine (text : String) (index : Nat) : List Char :=
  joinWords ["string".toList, Text.digits index, Text.quote text.toList]

def listingLines (program : Program) : List (List Char) :=
  headLines program ++ program.strings.zipIdx.map (fun (text, index) => stringLine text index) ++
    program.nodes.flatMap (nodeLines program)

def disassemble (program : Program) : String :=
  String.ofList ((listingLines program).flatMap fun line => line ++ ['\n'])

end Dialogue.Source
