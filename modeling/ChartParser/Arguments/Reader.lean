import ChartParser.Arguments.Settings

/-!
# Reading the command line

Arguments are read from left to right and the first mistake decides. A value
that stands as an argument of its own is held back, and looked at only when the
next option or positional argument has been recognised; so an unknown option
right after a bad value is the mistake that counts.
-/

namespace ChartParser.Arguments

/-- Values that have been held back. An option is held with its value once that has come. -/
inductive Held where
  | file (path : String)
  | words (words : List String)
  | parameter (parameter : Parameter) (value : Option String)
deriving DecidableEq, Repr

/-- How far the arguments have been read. The path of the grammar has been seen as soon as it has
come, though it may be held back. -/
structure Scan where
  draft : Draft
  held : Option Held
  fileSeen : Bool
  positionalOnly : Bool
deriving DecidableEq, Repr

namespace Scan

/-- Nothing has been read. -/
def start : Scan where
  draft := .empty
  held := none
  fileSeen := false
  positionalOnly := false

/-- Look at what has been held back. -/
def settle (scan : Scan) : Except Refusal Scan :=
  let settled : Except Refusal Draft := match scan.held with
    | none => .ok scan.draft
    | some (.file path) => scan.draft.setFile path
    | some (.words words) => .ok (scan.draft.addWords words)
    | some (.parameter _ none) => .error .invalidValue
    | some (.parameter parameter (some value)) => scan.draft.setParameter parameter value
  settled.map fun draft => { scan with draft, held := none }

/-- Hold values back, after a look at those held back before. -/
def hold (scan : Scan) (held : Held) : Except Refusal Scan :=
  scan.settle.map fun settled => { settled with held := some held }

/-- Read a positional argument: first the grammar's path, then the words of the sentence. -/
def readPositional (scan : Scan) (text : String) : Except Refusal Scan :=
  if scan.fileSeen then
    match scan.held with
    | some (.words words) => .ok { scan with held := some (.words (words ++ [text])) }
    | _ => scan.hold (.words [text])
  else
    (scan.hold (.file text)).map fun held => { held with fileSeen := true }

/-- Read an argument that names no option. It is the value of an option that waits for one, and
positional otherwise. -/
def readPlain (scan : Scan) (text : String) : Except Refusal Scan :=
  match scan.held with
  | some (.parameter parameter none) =>
      .ok { scan with held := some (.parameter parameter (some text)) }
  | _ => scan.readPositional text

/-- Read a flag. -/
def readFlag (scan : Scan) (flag : Flag) : Except Refusal Scan := do
  let settled ← scan.settle
  let draft ← settled.draft.setFlag flag
  return { settled with draft }

/-- Read a parameter whose value stands in the same argument. -/
def readAttached (scan : Scan) (parameter : Parameter) (value : String) : Except Refusal Scan := do
  let settled ← scan.settle
  let draft ← settled.draft.setParameter parameter value
  return { settled with draft }

/-- Read an option by its long name, with the value after the first equals sign if there is one. -/
def readNamed (scan : Scan) (body : List Char) : Except Refusal Scan :=
  let name := String.ofList (body.takeWhile (· != '='))
  match Switch.ofName name, body.dropWhile (· != '=') with
  | none, _ => .error .unknownArgument
  | some (.flag flag), [] => scan.readFlag flag
  | some (.flag _), _ :: _ => .error .tooManyValues
  | some (.parameter parameter), [] => scan.hold (.parameter parameter none)
  | some (.parameter parameter), _ :: value =>
      scan.readAttached parameter (String.ofList value)

/-- Leave out one equals sign at the beginning. -/
def withoutEquals : List Char → List Char
  | '=' :: rest => rest
  | text => text

/-- Read options by their letters. What follows the letter of a parameter is its value. -/
def readLetters (scan : Scan) : List Char → Except Refusal Scan
  | [] => .ok scan
  | letter :: rest =>
      match Switch.ofLetter letter with
      | none => .error .unknownArgument
      | some (.flag flag) => (scan.readFlag flag).bind fun next => next.readLetters rest
      | some (.parameter parameter) =>
          if rest.isEmpty then scan.hold (.parameter parameter none)
          else scan.readAttached parameter (String.ofList (withoutEquals rest))

/-- Read one argument. A lone dash names no option, and two dashes end the options. -/
def readArgument (scan : Scan) (argument : String) : Except Refusal Scan :=
  if scan.positionalOnly then
    scan.readPositional argument
  else
    match argument.toList with
    | ['-', '-'] => .ok { scan with positionalOnly := true }
    | '-' :: '-' :: body => scan.readNamed body
    | '-' :: letter :: rest => scan.readLetters (letter :: rest)
    | _ => scan.readPlain argument

end Scan

/-- Read the arguments of the program. -/
def read (arguments : List String) : Except Refusal Settings := do
  let scan ← arguments.foldlM Scan.readArgument Scan.start
  let settled ← scan.settle
  settled.draft.settings

end ChartParser.Arguments
