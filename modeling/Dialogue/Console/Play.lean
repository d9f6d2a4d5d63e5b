import Dialogue.Image.Codec
import Dialogue.Machine.Step
import Dialogue.Operators
import Dialogue.Text.Blank
import Dialogue.Text.Digits
import Dialogue.Text.Lines

/-!
Playing a program on the command line. Lines, commands and numbered options are printed, and the answer to a prompt
is the number of an option; anything else is refused and asked again. Input that ends at a prompt ends the play.
-/

namespace Dialogue.Console

structure Report where
  output : String
  errors : String
  code : Nat
deriving DecidableEq

def Report.after (output : String) (report : Report) : Report := { report with output := output ++ report.output }

def Report.success : Report := ⟨"", "", 0⟩

def Report.failure (message : String) : Report := ⟨"", message ++ "\n", 1⟩

def runtimeFailure (fault : Fault) : Report := .failure s!"Runtime error: {fault.message}"

/-- The stage of a program that is played on the command line. -/
def stageOf (program : Program) : Stage := ⟨program, Operators.library.find?, .standard⟩

def showEvent : Event → String
  | .line text => text ++ "\n"
  | .command text => s!"<<{text}>>\n"
  | .options texts _ => "".intercalate (texts.zipIdx.map fun (text, index) => s!"  {index + 1}) {text}\n")
  | .complete => ""

def showEvents (events : List Event) : String := "".intercalate (events.map showEvent)

def latestHandle? (events : List Event) : Option Handle :=
  (events.filterMap fun
    | .options _ handle => some handle
    | _ => none).getLast?

structure Prompt where
  machine : Machine
  store : Storage
  handle : Handle

def promptText : String := "> "

/-- The option that an answer names, counted from zero: its number is written in digits, between blanks if any. -/
def readChoice? (answer : String) : Option Nat :=
  match Text.readWord? (Text.trim answer.toList) with
  | some number => if number = 0 then none else some (number.toNat - 1)
  | none => none

def Prompt.answer (prompt : Prompt) (answer : String) : Except String Machine :=
  match readChoice? answer with
  | none => .error s!"Enter a number between 1 and {prompt.handle.optionCount}"
  | some index => (prompt.machine.selectOption prompt.handle index).mapError Rejection.message

inductive Next where
  | prompt (prompt : Prompt)
  | ended (report : Report)
  | unfinished (machine : Machine) (store : Storage)

def nextOf (response : Response Storage (Option Status)) : Next :=
  match response.result with
  | .error fault => .ended (runtimeFailure fault)
  | .ok none => .unfinished response.machine response.store
  | .ok (some .waiting) =>
    match latestHandle? response.events with
    | some handle => .prompt ⟨response.machine, response.store, handle⟩
    | none => .ended .success
  | .ok (some _) => .ended .success

/-- Plays to the end with the lines of the input, where a line that is no text ends it. Every run of the machine has
`fuel` steps; the answer is `none` if one of them needs more. -/
def converse (stage : Stage) (fuel : Nat) (prompt : Prompt) : List (Option String) → Option Report
  | [] | none :: _ => some (.after promptText .success)
  | some line :: rest =>
    match prompt.answer line with
    | .error message => (converse stage fuel prompt rest).map (.after s!"{promptText}{message}\n")
    | .ok machine =>
      let response := machine.run prompt.store stage fuel
      let shown := promptText ++ showEvents response.events
      match nextOf response with
      | .ended report => some (report.after shown)
      | .unfinished _ _ => none
      | .prompt prompt => (converse stage fuel prompt rest).map (.after shown)

/-- The lines of the input; one that is not UTF-8 is no text. -/
def inputLines (input : List UInt8) : List (Option String) := (Text.linesOf 10 13 input).map Image.ofUtf8?

def opening (stage : Stage) (start : String) : Except Fault Machine :=
  match Machine.initial.selectNode stage.program start with
  | (_, .error fault) => .error fault
  | (machine, .ok ()) => .ok machine

def play (program : Program) (start : String) (input : List UInt8) (fuel : Nat) : Option Report :=
  let stage := stageOf program
  match opening stage start with
  | .error fault => some (runtimeFailure fault)
  | .ok machine =>
    let response := machine.run Storage.empty stage fuel
    let shown := showEvents response.events
    match nextOf response with
    | .ended report => some (report.after shown)
    | .unfinished _ _ => none
    | .prompt prompt => (converse stage fuel prompt (inputLines input)).map (.after shown)

end Dialogue.Console
