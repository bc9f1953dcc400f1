import ChartParser.Event.Basic
import ChartParser.Text.Blank
import ChartParser.Text.Lines

/-!
# Lines of a grammar

A line of four words registers a binary rule and a line of three words a
terminal rule. The second word stands for the arrow and may be anything. Every
other line is ignored, and logged unless it is blank.
-/

namespace ChartParser

/-- What a line of a grammar says. Of one that registers nothing only the number of its words is
kept. -/
inductive Line where
  | registered (registration : Registration)
  | ignored (wordCount : Nat)
deriving DecidableEq, Repr

namespace Line

/-- Read a line that has been taken apart into words. -/
def ofWords : List String → Line
  | [name, _, left, right] => registered (.binary name left right)
  | [name, _, token] => registered (.terminal name token)
  | words => ignored words.length

/-- Read a line. -/
def read (text : String) : Line :=
  ofWords (Text.words text)

end Line

/-- A grammar that is being loaded, with the events logged on the way. -/
structure Loading where
  grammar : Grammar
  events : Array Event

namespace Loading

/-- Begin to add to a grammar. -/
def onto (grammar : Grammar) : Loading where
  grammar := grammar
  events := #[]

/-- Log an event. -/
def log (loading : Loading) (event : Event) : Loading :=
  { loading with events := loading.events.push event }

/-- Add what a line registers. -/
def readLine (loading : Loading) (text : String) : Loading :=
  match Line.read text with
  | .registered registration =>
      { loading with grammar := loading.grammar.register registration }
  | .ignored 0 => loading
  | .ignored wordCount => loading.log (.skippedLine wordCount text)

/-- Add what every line of a text registers. -/
def readText (loading : Loading) (text : String) : Loading :=
  (Text.lines text).foldl readLine loading

end Loading

end ChartParser
