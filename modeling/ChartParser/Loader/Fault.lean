import ChartParser.Path

/-!
# Faults of reading

A grammar cannot be loaded when its file cannot be opened or read. The failure
names the file and, unless the file as a whole is at fault, the line that was
being read.
-/

namespace ChartParser

/-- What can go wrong with a file or a stream. -/
inductive FaultKind where
  | notFound
  | permissionDenied
  | notADirectory
  | isADirectory
  | invalidName
  | invalidInput
  | invalidData
  | brokenPipe
  | timedOut
  | interrupted
  | unexpectedEnd
  | other
deriving DecidableEq, Repr

/-- The words for a fault that brings none of its own. -/
def FaultKind.description : FaultKind → String
  | notFound => "entity not found"
  | permissionDenied => "permission denied"
  | notADirectory => "not a directory"
  | isADirectory => "is a directory"
  | invalidName => "invalid filename"
  | invalidInput => "invalid input parameter"
  | invalidData => "invalid data"
  | brokenPipe => "broken pipe"
  | timedOut => "timed out"
  | interrupted => "operation interrupted"
  | unexpectedEnd => "unexpected end of file"
  | other => "other error"

/-- A fault, with its own words if it has any. -/
structure Fault where
  kind : FaultKind
  words : Option String
deriving DecidableEq, Repr

/-- The fault in words. -/
def Fault.message (fault : Fault) : String :=
  "File error: " ++ fault.words.getD fault.kind.description

/-- A place in a file. Lines are counted from one; line zero stands for the whole file. -/
structure Location where
  file : String
  line : Nat
deriving DecidableEq, Repr

namespace Location

/-- The file, and the line after a colon if there is one. -/
def display (location : Location) : String :=
  if location.line = 0 then location.file else location.file ++ ":" ++ toString location.line

/-- Locations are the same when their lines are and their paths have the same parts. -/
def same (first second : Location) : Bool :=
  first.line == second.line && Path.same first.file second.file

end Location

/-- A grammar that could not be loaded. -/
structure LoadFailure where
  location : Location
  fault : Fault
deriving DecidableEq, Repr

namespace LoadFailure

/-- The failure as it is shown, the location in bold red. -/
def display (failure : LoadFailure) : String :=
  "\x1b[31;49;1m[" ++ failure.location.display ++ "]\x1b[39;49;1m  " ++ failure.fault.message ++
    "\x1b[0m"

/-- Failures are the same when their locations and the kinds of their faults are. The words of a
fault do not count. -/
def same (first second : LoadFailure) : Bool :=
  first.location.same second.location && first.fault.kind == second.fault.kind

end LoadFailure

end ChartParser
