/-!
Operation codes: the byte and the mnemonic under which an instruction is stored and written.
-/

namespace Dialogue

inductive Opcode where
  | jumpTo
  | jump
  | runLine
  | runCommand
  | addOption
  | showOptions
  | pushString
  | pushNumber
  | pushBool
  | pushNull
  | jumpIfFalse
  | pop
  | callFunction
  | pushVariable
  | storeVariable
  | stop
  | runNode
  | label
deriving DecidableEq

namespace Opcode

def all : List Opcode :=
  [jumpTo, jump, runLine, runCommand, addOption, showOptions, pushString, pushNumber, pushBool, pushNull,
    jumpIfFalse, pop, callFunction, pushVariable, storeVariable, stop, runNode, label]

def byte : Opcode → UInt8
  | jumpTo => 0
  | jump => 1
  | runLine => 2
  | runCommand => 3
  | addOption => 4
  | showOptions => 5
  | pushString => 6
  | pushNumber => 7
  | pushBool => 8
  | pushNull => 9
  | jumpIfFalse => 10
  | pop => 11
  | callFunction => 12
  | pushVariable => 13
  | storeVariable => 14
  | stop => 15
  | runNode => 16
  | label => 17

def mnemonic : Opcode → String
  | jumpTo => "JumpTo"
  | jump => "Jump"
  | runLine => "RunLine"
  | runCommand => "RunCommand"
  | addOption => "AddOption"
  | showOptions => "ShowOptions"
  | pushString => "PushString"
  | pushNumber => "PushNumber"
  | pushBool => "PushBool"
  | pushNull => "PushNull"
  | jumpIfFalse => "JumpIfFalse"
  | pop => "Pop"
  | callFunction => "CallFunc"
  | pushVariable => "PushVariable"
  | storeVariable => "StoreVariable"
  | stop => "Stop"
  | runNode => "RunNode"
  | label => "Label"

def ofByte? (byte : UInt8) : Option Opcode := all.find? fun opcode => opcode.byte = byte

def ofMnemonic? (name : String) : Option Opcode := all.find? fun opcode => opcode.mnemonic = name

theorem mem_all (opcode : Opcode) : opcode ∈ all := by cases opcode <;> decide

theorem ofByte?_byte (opcode : Opcode) : ofByte? opcode.byte = some opcode := by cases opcode <;> decide

theorem ofMnemonic?_mnemonic (opcode : Opcode) : ofMnemonic? opcode.mnemonic = some opcode := by
  cases opcode <;> decide

end Opcode

end Dialogue
