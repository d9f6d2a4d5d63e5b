import Dialogue.Console.Arguments
import Dialogue.Console.Files
import Dialogue.Console.Play
import Dialogue.Image.Container
import Dialogue.Source.Listing

/-!
The command line as a whole: it loads a program from its source or its saved form, and saves, lists, checks or
plays it.
-/

namespace Dialogue.Console

def usage : String := "\n".intercalate [
  "LOOM - dialogue bytecode runtime",
  "",
  "Usage:",
  "  loom <file.loom>                  Assemble and play a program",
  "  loom <file.loomc>                 Play a compiled program",
  "  loom <file> --start <Node>        Start at a node other than 'Start'",
  "  loom <file> --disasm              Print the disassembly",
  "  loom <file> --check               Run the stack checker",
  "  loom <file> --emit <out.loomc>    Write the compiled program",
  "  loom --help, -h                   Show this help",
  "",
  "Set RUST_LOG=loom=debug to trace execution.",
  ""]

inductive Form where
  | source
  | image
deriving DecidableEq

def Form.ofPath? (path : String) : Option Form :=
  match extension? path with
  | some "loom" => some .source
  | some "loomc" => some .image
  | _ => none

def formFailure (path : String) : String := s!"Error: expected a .loom or .loomc file, got {path}"

def readFailure (path reason : String) : String := s!"Failed to read '{path}': {reason}"

def writeFailure (path reason : String) : String := s!"Failed to write '{path}': {reason}"

def decode (form : Form) (path : String) (bytes : List UInt8) : Except String Program :=
  match form with
  | .source =>
    match Image.ofUtf8? bytes with
    | none => .error (readFailure path "stream did not contain valid UTF-8")
    | some source =>
      (Source.assemble source).mapError fun error => s!"Assembly error: {path}:{error.message}"
  | .image => (Image.load bytes).mapError fun error => s!"Load error: {path}: {error.message}"

/-- Lists and checks a program, as far as the options ask for it. -/
def inspect (options : Options) (program : Program) : Report :=
  let listing := if options.disassemble then Source.disassemble program else ""
  let verdict : Report :=
    if options.check then
      match program.check Operators.library.signatures with
      | .ok () => ⟨s!"ok: {program.nodes.length} node(s) checked\n", "", 0⟩
      | .error error => .failure error.message
    else .success
  verdict.after listing

def misuse (error : UsageError) : Report := ⟨usage, s!"Error: {error.message}\n", 1⟩

def load (options : Options) (directory : Directory) : Except String Program :=
  match Form.ofPath? options.file with
  | none => .error (formFailure options.file)
  | some form =>
    match directory.read options.file with
    | .error fault => .error (readFailure options.file fault.message)
    | .ok bytes => decode form options.file bytes

def save (options : Options) (program : Program) (directory : Directory) : Except String Directory :=
  match options.output with
  | none => .ok directory
  | some path => (directory.write path (Image.save program)).mapError fun fault => writeFailure path fault.message

def work (options : Options) (directory : Directory) (input : List UInt8) (fuel : Nat) :
    Option (Report × Directory) :=
  match load options directory with
  | .error message => some (.failure message, directory)
  | .ok program =>
    match save options program directory with
    | .error message => some (.failure message, directory)
    | .ok directory =>
      if options.isTooling then some (inspect options program, directory)
      else (play program options.start input fuel).map fun report => (report, directory)

/-- The whole command line in a directory, with the bytes of the standard input. The answer is `none` if a run of
the machine needs more than `fuel` steps. -/
def run (arguments : List String) (directory : Directory) (input : List UInt8) (fuel : Nat) :
    Option (Report × Directory) :=
  match Command.ofArguments arguments with
  | .help => some ({ Report.success with output := usage }, directory)
  | .misuse error => some (misuse error, directory)
  | .work options => work options directory input fuel

end Dialogue.Console
