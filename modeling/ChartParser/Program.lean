import ChartParser.Arguments.Reader
import ChartParser.Event.Line
import ChartParser.Loader.Files
import ChartParser.Prompt
import ChartParser.Sampling.Seed

/-!
# The program

The program loads a grammar and then draws derivations, parses one sentence, or
answers the lines of its input at the prompt.
-/

namespace ChartParser.Program

open Arguments

/-- What a run of the program comes to. One that has finished shows its events from a level on. -/
inductive Outcome where
  | refused (refusal : Refusal)
  | notLoaded (failure : LoadFailure)
  | finished (least : Level) (transcript : Transcript)

namespace Outcome

/-- The exit code. -/
def exitCode : Outcome → Nat
  | refused refusal => refusal.exitCode
  | notLoaded _ => 1
  | finished _ _ => 0

/-- What is written to the output. -/
def output : Outcome → String
  | refused refusal => refusal.text
  | notLoaded _ => ""
  | finished _ transcript => transcript.output

/-- The lines of the log. -/
def logLines : Outcome → List String
  | refused _ | notLoaded _ => []
  | finished least transcript => Event.lines least transcript.events.toList

end Outcome

/-- Show a derivation that has been drawn: its sentence, then the derivation. -/
def printSample (layout : Tree.Layout) (transcript : Transcript) (tree : Tree) : Transcript :=
  ((transcript.log (.generated tree.depth)).printLine (" ".intercalate tree.leaves)).printLine
    (tree.render layout)

/-- Draw derivations one after the other from one source. -/
def printSamples (grammar : Grammar) (limit : Nat) (layout : Tree.Layout) :
    Nat → WordSource → Transcript → Transcript
  | 0, _, transcript => transcript
  | amount + 1, source, transcript =>
      match grammar.draw limit source with
      | ⟨.ok tree, rest⟩ =>
          printSamples grammar limit layout amount rest (printSample layout transcript tree)
      | ⟨.error failure, rest⟩ =>
          printSamples grammar limit layout amount rest
            (transcript.log (.generationFailed failure))

/-- What the arguments ask for, apart from the grammar. -/
inductive Task where
  | generate (amount : Nat)
  | parse (sentence : String)
  | prompt
deriving DecidableEq, Repr

/-- The task of some settings. The words of a sentence are joined with single spaces, and an amount
to generate goes before a sentence. -/
def Task.ofSettings (settings : Settings) : Task :=
  match settings.generate, settings.sentence with
  | some amount, _ => generate amount
  | none, [] => prompt
  | none, words => parse (" ".intercalate words)

/-- How the settings have sentences parsed and shown. -/
def sessionOf (settings : Settings) (grammar : Grammar) : Session where
  grammar := grammar
  budget := settings.parseBudget
  layout := settings.layout

/-- A grammar that is ready for the task, with what has been logged on the way to it. -/
structure Prepared where
  grammar : Grammar
  transcript : Transcript

/-- Load the grammar that the settings name, and give it their start symbol if they name one. A
grammar without rules is worth a warning. -/
def prepare (settings : Settings) (opened : Except Fault (List Delivery)) :
    Except LoadFailure Prepared :=
  let loading := loadFile settings.file opened
  loading.result.map fun loaded =>
    let grammar := match settings.start with
      | none => loaded
      | some start => loaded.withStart start
    let transcript := Transcript.empty.logAll loading.events
    ⟨grammar, if grammar.isEmpty then transcript.log (.noRules settings.file) else transcript⟩

/-- Do what the settings ask for. Without a seed of their own, derivations are drawn from the given
one. -/
def perform (settings : Settings) (prepared : Prepared) (seed : UInt64) (input : String) :
    Transcript :=
  let session := sessionOf settings prepared.grammar
  match Task.ofSettings settings with
  | .generate amount =>
      let stream := WordStream.ofSeed ((settings.seed.map UInt64.ofNat).getD seed)
      printSamples prepared.grammar settings.maxDepth settings.layout amount stream.source
        prepared.transcript
  | .parse sentence =>
      let parsed := session.parseSentence sentence
      (prepared.transcript.logAll parsed.events).printLine
        (Session.format settings.layout parsed.result)
  | .prompt => prepared.transcript ++ session.run (Text.lines input)

/-- Run the program: on its arguments, on what opening a path gives, on the text of its input, and
on a seed for derivations that are to differ from run to run. -/
def run (arguments : List String) (openPath : String → Except Fault (List Delivery))
    (input : String) (seed : UInt64) : Outcome :=
  match Arguments.read arguments with
  | .error refusal => .refused refusal
  | .ok settings =>
      match prepare settings (openPath settings.file) with
      | .error failure => .notLoaded failure
      | .ok prepared => .finished settings.logLevel (perform settings prepared seed input)

end ChartParser.Program
