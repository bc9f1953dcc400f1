import ChartParser.Arguments.Number
import ChartParser.Arguments.Options
import ChartParser.Event.Basic
import ChartParser.Parsing
import ChartParser.Sampling.Derivation
import ChartParser.Tree.Rendering

/-!
# Settings of a run

The settings are what the arguments come to. They are gathered in a draft in
which everything may still be missing.
-/

namespace ChartParser.Arguments

/-- Everything that the command line settles: the path of the grammar, the words of a sentence to
parse once or the number of derivations to draw, and how. More logging is counted up to 255. -/
structure Settings where
  file : String
  sentence : List String
  layout : Tree.Layout
  start : Option Symbol
  budget : Option Nat
  generate : Option Nat
  seed : Option Nat
  maxDepth : Nat
  verbosity : Nat
deriving DecidableEq, Repr

namespace Settings

/-- The least level that is logged. -/
def logLevel (settings : Settings) : Level :=
  match settings.verbosity with
  | 0 => .warn
  | 1 => .debug
  | _ => .trace

/-- The budget of every parse. -/
def parseBudget (settings : Settings) : Budget :=
  match settings.budget with
  | none => .unlimited
  | some limit => .entries limit

end Settings

/-- What the arguments read so far have settled. -/
structure Draft where
  file : Option String
  sentence : List String
  parseTree : Bool
  verbosity : Nat
  start : Option Symbol
  budget : Option Nat
  generate : Option Nat
  seed : Option Nat
  maxDepth : Option Nat
deriving DecidableEq, Repr

namespace Draft

/-- Nothing is settled. -/
def empty : Draft where
  file := none
  sentence := []
  parseTree := false
  verbosity := 0
  start := none
  budget := none
  generate := none
  seed := none
  maxDepth := none

/-- The value of a parameter that is given for the first time, if the value can be read. -/
def once {Value : Type} (current read : Option Value) : Except Refusal (Option Value) :=
  match current, read with
  | some _, _ => .error .argumentConflict
  | none, none => .error .valueValidation
  | none, some value => .ok (some value)

/-- Settle a parameter. That it has been given before is found out before its value is read. -/
def setParameter (draft : Draft) (parameter : Parameter) (text : String) :
    Except Refusal Draft :=
  let natural := Number.below UInt64.size text
  match parameter with
  | .start => (once draft.start (some text)).map fun start => { draft with start }
  | .budget => (once draft.budget natural).map fun budget => { draft with budget }
  | .generate =>
      (once draft.generate (Number.signedBelow UInt32.size text)).map fun generate =>
        { draft with generate }
  | .seed => (once draft.seed natural).map fun seed => { draft with seed }
  | .maxDepth => (once draft.maxDepth natural).map fun maxDepth => { draft with maxDepth }

/-- Settle a flag. Only the one for more logging may be repeated. -/
def setFlag (draft : Draft) : Flag → Except Refusal Draft
  | .parseTree =>
      if draft.parseTree then .error .argumentConflict else .ok { draft with parseTree := true }
  | .verbose => .ok { draft with verbosity := min 255 (draft.verbosity + 1) }
  | .help => .error .helpAsked
  | .version => .error .versionAsked

/-- Settle the grammar's path, which is not empty. -/
def setFile (draft : Draft) (path : String) : Except Refusal Draft :=
  if path.isEmpty then .error .invalidValue else .ok { draft with file := some path }

/-- Add words to the sentence. -/
def addWords (draft : Draft) (words : List String) : Draft :=
  { draft with sentence := draft.sentence ++ words }

/-- The settings, if nothing that is needed is missing: a grammar always, and an amount to generate
where there is a seed. -/
def settings (draft : Draft) : Except Refusal Settings :=
  match draft.file with
  | none => .error .missingRequiredArgument
  | some file =>
      if draft.seed.isSome && draft.generate.isNone then
        .error .missingRequiredArgument
      else
        .ok {
          file
          sentence := draft.sentence
          layout := if draft.parseTree then .indented else .flat
          start := draft.start
          budget := draft.budget
          generate := draft.generate
          seed := draft.seed
          maxDepth := draft.maxDepth.getD Grammar.defaultDepth
          verbosity := draft.verbosity }

end Draft

end ChartParser.Arguments
