/-!
Arguments of the command line.
-/

namespace Dialogue.Console

structure Options where
  file : String
  start : String
  disassemble : Bool
  check : Bool
  output : Option String
deriving DecidableEq

/-- Whether the program is worked on instead of played. -/
def Options.isTooling (options : Options) : Bool := options.disassemble || options.check || options.output.isSome

inductive UsageError where
  | startNeedsNode
  | outputNeedsPath
  | unknownFlag (argument : String)
  | unexpected (argument : String)
  | noFile
deriving DecidableEq

def UsageError.message : UsageError → String
  | .startNeedsNode => "--start needs a node name"
  | .outputNeedsPath => "--emit needs an output path"
  | .unknownFlag argument => s!"unknown flag '{argument}'"
  | .unexpected argument => s!"unexpected argument '{argument}'"
  | .noFile => "no input file"

/-- The options as far as arguments have given them. -/
structure PartialOptions where
  file : Option String
  start : String
  disassemble : Bool
  check : Bool
  output : Option String

/-- A program is played from here unless told otherwise. -/
def defaultStart : String := "Start"

def PartialOptions.initial : PartialOptions := ⟨none, defaultStart, false, false, none⟩

/-- Takes in arguments from left to right. A flag that needs a value takes the next argument, whatever it is, and a
later one wins. -/
def PartialOptions.addArguments (given : PartialOptions) : List String → Except UsageError PartialOptions
  | [] => .ok given
  | argument :: rest =>
    if argument = "--disasm" then { given with disassemble := true }.addArguments rest
    else if argument = "--check" then { given with check := true }.addArguments rest
    else if argument = "--start" then
      match rest with
      | [] => .error .startNeedsNode
      | node :: rest => { given with start := node }.addArguments rest
    else if argument = "--emit" then
      match rest with
      | [] => .error .outputNeedsPath
      | path :: rest => { given with output := some path }.addArguments rest
    else if argument.toList.head? = some '-' then .error (.unknownFlag argument)
    else if given.file.isNone then { given with file := some argument }.addArguments rest
    else .error (.unexpected argument)

def Options.ofArguments (arguments : List String) : Except UsageError Options :=
  match PartialOptions.initial.addArguments arguments with
  | .error error => .error error
  | .ok given =>
    match given.file with
    | none => .error .noFile
    | some file => .ok ⟨file, given.start, given.disassemble, given.check, given.output⟩

inductive Command where
  | help
  | misuse (error : UsageError)
  | work (options : Options)
deriving DecidableEq

/-- Without arguments, and with a request for help anywhere among them, help is shown. -/
def Command.ofArguments (arguments : List String) : Command :=
  if arguments.isEmpty || arguments.any fun argument => argument = "--help" || argument = "-h" then .help
  else
    match Options.ofArguments arguments with
    | .error error => .misuse error
    | .ok options => .work options

end Dialogue.Console
