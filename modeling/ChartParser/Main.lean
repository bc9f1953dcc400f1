import ChartParser.Program

/-!
# The command line

The outer layer of the program: it opens files, reads the input line by line,
and writes what the library answers.
-/

namespace ChartParser.CommandLine

open Program

/-- The fault that an error of the system stands for. -/
def faultOf : IO.Error → Fault
  | .noFileOrDirectory .. => FileTree.absent
  | .noSuchThing .. => FileTree.absent
  | .inappropriateType .. => FileTree.isDirectory
  | .permissionDenied .. => ⟨.permissionDenied, some "Permission denied (os error 13)"⟩
  | error => ⟨.other, some error.toString⟩

/-- Open a file and read all of it. A directory can be opened, but not read. -/
def openFile (path : String) : IO (Except Fault (List Delivery)) := do
  try
    return .ok [.data (← IO.FS.readBinFile path).toList]
  catch error =>
    let fault := faultOf error
    return if fault = FileTree.isDirectory then .ok [.failure fault] else .error fault

/-- Write a transcript, its events to the error output. -/
def write (least : Level) (transcript : Transcript) : IO Unit := do
  let log ← IO.getStderr
  for line in Event.lines least transcript.events.toList do
    log.putStrLn line
  let output ← IO.getStdout
  output.putStr transcript.output
  output.flush

/-- Answer the lines of the input as they come. -/
partial def converse (session : Session) (least : Level) (mode : Session.Mode) : IO Unit := do
  let input ← IO.getStdin
  match Text.lines (← input.getLine) with
  | [] => return
  | line :: _ =>
      let (next, answer) := session.respond mode line
      write least answer
      if next ≠ .ended then
        converse session least next

/-- A seed that differs from run to run. -/
def freshSeed : IO UInt64 := do
  let bytes ← IO.getRandomBytes 8
  return bytes.foldl (fun seed byte => (seed <<< 8) ||| byte.toUInt64) 0

/-- Run the program and give its exit code. -/
def runWith (arguments : List String) : IO UInt32 := do
  match Arguments.read arguments with
  | .error refusal =>
      if refusal.exitCode ≠ 0 then
        IO.eprintln "error: the arguments cannot be used, for more information try '--help'"
      IO.print refusal.text
      return refusal.exitCode.toUInt32
  | .ok settings =>
      match prepare settings (← openFile settings.file) with
      | .error failure =>
          IO.eprintln failure.display
          return 1
      | .ok prepared =>
          let least := settings.logLevel
          match Task.ofSettings settings with
          | .prompt =>
              write least prepared.transcript
              converse (sessionOf settings prepared.grammar) least .command
          | _ => write least (perform settings prepared (← freshSeed) "")
          return 0

end ChartParser.CommandLine

/-- The program. -/
def main (arguments : List String) : IO UInt32 :=
  ChartParser.CommandLine.runWith arguments
