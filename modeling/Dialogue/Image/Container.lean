import Dialogue.Image.Codec

/-!
The container in which a compiled program is saved: four magic bytes, the version of the format in two bytes from
the lowest up, and the body. Bytes behind the body are ignored.
-/

namespace Dialogue.Image

def magic : List UInt8 := [0x4c, 0x4f, 0x4f, 0x4d]

def formatVersion : Nat := 1

def headerLength : Nat := magic.length + 2

inductive LoadError where
  | badMagic
  | unsupportedVersion (found : Nat)
  | malformed (error : BodyError)
  | invalid (error : RawError)
deriving DecidableEq

def LoadError.message : LoadError → String
  | .badMagic => "not a compiled dialogue program"
  | .unsupportedVersion found => s!"unsupported format version {found} (this runtime reads {formatVersion})"
  | .malformed error => s!"malformed program body: {error.message}"
  | .invalid error => error.message

def save (program : Program) : List UInt8 :=
  magic ++ littleEndian formatVersion 2 ++ writeBody (.ofProgram program)

def ofRaw (raw : RawProgram) : Except LoadError Program :=
  match raw.toProgram with
  | .ok program => .ok program
  | .error error => .error (.invalid error)

def load (bytes : List UInt8) : Except LoadError Program :=
  if bytes.length < headerLength ∨ bytes.take magic.length ≠ magic then .error .badMagic
  else
    let version := ofLittleEndian ((bytes.drop magic.length).take 2)
    if version ≠ formatVersion then .error (.unsupportedVersion version)
    else
      match readBody (bytes.drop headerLength) with
      | .error error => .error (.malformed error)
      | .ok (raw, _) => ofRaw raw

end Dialogue.Image
