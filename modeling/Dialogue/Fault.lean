import Dialogue.Value

/-!
What can go wrong while a dialogue runs. A fatal fault means that the program itself is broken and stops the
machine; after any other the host may go on.
-/

namespace Dialogue

inductive Fault where
  | unknownNode (name : String)
  | unknownLabel (node label : String)
  | unknownFunction (name : String)
  | typeMismatch (expected found : Kind)
  | stackUnderflow (needed available : Nat)
  | missingString (index : UInt64)
  | functionFailed (name message : String)
  | stepLimit (bound : Nat)
  | stackLimit (bound : Nat)
  | noNodeSelected
  | stillWaiting
  | foreignSelection
  | optionOutOfRange (index count : Nat)
deriving DecidableEq

namespace Fault

/-- The host's own misuse of a machine is reported under one heading. -/
def hostUsage (detail : String) : String := s!"host usage error: {detail}"

def message : Fault → String
  | .unknownNode name => s!"no node named '{name}'"
  | .unknownLabel node label => s!"no label '{label}' in node '{node}'"
  | .unknownFunction name => s!"no function named '{name}'"
  | .typeMismatch expected found => s!"type mismatch: expected {expected.name}, got {found.name}"
  | .stackUnderflow needed available => s!"stack underflow: needed {needed} value(s), found {available}"
  | .missingString index => s!"string table has no entry {index}"
  | .functionFailed name reason => s!"function '{name}' failed: {reason}"
  | .stepLimit bound => s!"execution step limit exceeded ({bound})"
  | .stackLimit bound => s!"stack size limit exceeded ({bound})"
  | .noNodeSelected => "no node selected"
  | .stillWaiting => hostUsage "still waiting on option selection"
  | .foreignSelection => hostUsage "selection does not belong to the current option prompt"
  | .optionOutOfRange index count => hostUsage s!"option index {index} out of range for {count} option(s)"

/-- A wrong name given to a running dialogue and the host's own mistakes leave the machine fit to go on. -/
def isFatal : Fault → Bool
  | .unknownNode _ | .noNodeSelected | .stillWaiting | .foreignSelection | .optionOutOfRange _ _ => false
  | _ => true

end Fault

namespace Value

def asNumber : Value → Except Fault Number
  | .number value => .ok value
  | other => .error (.typeMismatch .number other.kind)

def asString : Value → Except Fault String
  | .string value => .ok value
  | other => .error (.typeMismatch .string other.kind)

def asBool : Value → Except Fault Bool
  | .bool value => .ok value
  | other => .error (.typeMismatch .bool other.kind)

end Value

end Dialogue
