import Dialogue.Console.Run

/-!
The executable: reads and writes real files and talks to the player.
-/

namespace Dialogue.Console

/-- The operating system's text of a failure, with its number. -/
def osMessage (error : IO.Error) : String :=
  let numbered (details : String) (code : UInt32) := s!"{details} (os error {code})"
  match error with
  | .noFileOrDirectory _ code details | .permissionDenied _ code details | .inappropriateType _ code details
  | .invalidArgument _ code details | .resourceExhausted _ code details | .alreadyExists _ code details =>
    numbered details code
  | .otherError code details => numbered details code
  | other => toString other

def deliver (report : Report) : IO UInt32 := do
  IO.print report.output
  (← IO.getStdout).flush
  IO.eprint report.errors
  return UInt32.ofNat report.code

/-- Runs the machine to a prompt or to its end, and prints what it tells as it goes. -/
partial def proceed (stage : Stage) (machine : Machine) (store : Storage) : IO (Except Report Prompt) := do
  let response := machine.run store stage 1
  IO.print (showEvents response.events)
  match nextOf response with
  | .ended report => return .error report
  | .prompt prompt => return .ok prompt
  | .unfinished machine store => proceed stage machine store

/-- The next line of the input, unless it ends or is no text. -/
def readLine : IO (Option String) := do
  let input ← IO.getStdin
  try
    let line ← input.getLine
    if line.isEmpty then return none
    return (inputLines line.toUTF8.data.toList).head?.join
  catch _ => return none

partial def attend (stage : Stage) (prompt : Prompt) : IO UInt32 := do
  IO.print promptText
  (← IO.getStdout).flush
  match ← readLine with
  | none => return 0
  | some line =>
    match prompt.answer line with
    | .error message =>
      IO.println message
      attend stage prompt
    | .ok machine =>
      match ← proceed stage machine prompt.store with
      | .error report => deliver report
      | .ok next => attend stage next

def playLive (program : Program) (start : String) : IO UInt32 := do
  let stage := stageOf program
  match opening stage start with
  | .error fault => deliver (runtimeFailure fault)
  | .ok machine =>
    match ← proceed stage machine Storage.empty with
    | .error report => deliver report
    | .ok prompt => attend stage prompt

/-- Loads the program that the options name from a real file. -/
def loadLive (options : Options) : IO (Except String Program) := do
  match Form.ofPath? options.file with
  | none => return .error (formFailure options.file)
  | some form =>
    try
      let bytes ← IO.FS.withFile options.file .read fun handle => handle.readBinToEnd
      return decode form options.file bytes.data.toList
    catch error => return .error (readFailure options.file (osMessage error))

/-- Saves the program to a real file if the options ask for it. -/
def saveLive (options : Options) (program : Program) : IO (Except String Unit) := do
  match options.output with
  | none => return .ok ()
  | some path =>
    try
      IO.FS.writeBinFile path ⟨(Image.save program).toArray⟩
      return .ok ()
    catch error => return .error (writeFailure path (osMessage error))

def workLive (options : Options) : IO UInt32 := do
  match ← loadLive options with
  | .error message => deliver (.failure message)
  | .ok program =>
    match ← saveLive options program with
    | .error message => deliver (.failure message)
    | .ok () =>
      if options.isTooling then deliver (inspect options program) else playLive program options.start

end Dialogue.Console

def main (arguments : List String) : IO UInt32 :=
  match Dialogue.Console.Command.ofArguments arguments with
  | .help => Dialogue.Console.deliver { Dialogue.Console.Report.success with output := Dialogue.Console.usage }
  | .misuse error => Dialogue.Console.deliver (Dialogue.Console.misuse error)
  | .work options => Dialogue.Console.workLive options
