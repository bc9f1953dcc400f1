import ChartParser.Chart.Span
import ChartParser.Sampling.Failure

/-!
# Logged events

Everything that is logged is an event. An event has a level, the part of the
program that it is about, a message, and fields in a fixed order.
-/

namespace ChartParser

/-- How much an event matters, from the finest detail to a warning. -/
inductive Level where
  | trace
  | debug
  | warn
deriving DecidableEq, Repr

/-- The value of a field of an event. A log line shows plain text as it is and other text between
quotes. -/
inductive FieldValue where
  | number (value : Nat)
  | plain (text : String)
  | quoted (text : String)
deriving DecidableEq, Repr

/-- What can be logged. A load that has come to its end counts the names with rules of either
kind. -/
inductive Event where
  | skippedLine (wordCount : Nat) (line : String)
  | loadedGrammar (path : String) (rules terminals : Nat)
  | noRules (path : String)
  | unknownToken (token : Token) (position : Nat)
  | filledCell (span : Span) (entries : Nat)
  | parsedSentence (tokens entries parses : Nat)
  | parsing (sentence : String)
  | generated (depth : Nat)
  | generationFailed (failure : SamplingFailure)
deriving DecidableEq, Repr

namespace Event

/-- How much the event matters. -/
def level : Event → Level
  | filledCell .. => .trace
  | noRules .. | generationFailed .. => .warn
  | skippedLine .. | loadedGrammar .. | unknownToken .. | parsedSentence .. | parsing ..
  | generated .. => .debug

/-- The part of the program that the event is about. -/
def target : Event → String
  | skippedLine .. | loadedGrammar .. => "cky::parser"
  | unknownToken .. | filledCell .. | parsedSentence .. => "cky::chart"
  | parsing .. => "cky::repl"
  | noRules .. | generated .. | generationFailed .. => "cky"

/-- What happened, in words. -/
def message : Event → String
  | skippedLine .. => "skipping line that is neither a rule nor a terminal"
  | loadedGrammar .. => "loaded grammar"
  | noRules path => path ++ " defines no rules"
  | unknownToken .. => "token is not in the lexicon"
  | filledCell .. => "filled cell"
  | parsedSentence .. => "parsed sentence"
  | parsing .. => "parsing"
  | generated .. => "generated derivation"
  | generationFailed failure => failure.message

/-- The fields of the event, by name, in the order in which they are shown. -/
def fields : Event → List (String × FieldValue)
  | skippedLine wordCount line => [("tokens", .number wordCount), ("line", .quoted line)]
  | loadedGrammar path rules terminals =>
      [("path", .plain path), ("rules", .number rules), ("terminals", .number terminals)]
  | unknownToken token position => [("token", .quoted token), ("position", .number position)]
  | filledCell span entries =>
      [("i", .number span.start), ("j", .number span.stop), ("entries", .number entries)]
  | parsedSentence tokens entries parses =>
      [("tokens", .number tokens), ("entries", .number entries), ("parses", .number parses)]
  | parsing sentence => [("sentence", .plain sentence)]
  | generated depth => [("depth", .number depth)]
  | noRules .. | generationFailed .. => []

end Event

end ChartParser
