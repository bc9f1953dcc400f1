import ChartParser.Chart.Filling

/-!
# Parsing

The parses of a sentence are its derivations from the start symbol of a
grammar, in the order of the chart. A sentence without tokens, or with a token
that the grammar does not know, has none. A parse that runs over its budget has
no answer, which says nothing about the sentence.
-/

namespace ChartParser

/-- Why a parse has no answer. -/
inductive ParseFailure where
  | budgetExceeded (limit : Nat)
deriving DecidableEq, Repr

/-- The failure in words. -/
def ParseFailure.message : ParseFailure → String
  | budgetExceeded limit => "gave up after creating " ++ toString limit ++ " chart entries"

/-- Every derivation of a sentence, in order, or the reason why they are not known. -/
abbrev ParseResult := Except ParseFailure (List Tree)

/-- A result with what was logged on the way to it. -/
structure ParseReport where
  result : ParseResult
  events : List Event

namespace Grammar

/-- Parse a sentence and keep the log. -/
def parseLogged (grammar : Grammar) (budget : Budget) (tokens : List Token) : ParseReport :=
  if tokens.isEmpty then
    ⟨.ok [], []⟩
  else
    match Filling.fill grammar budget tokens with
    | .ok filling =>
        let trees := filling.chart.treesOf tokens grammar.start
        let summary := .parsedSentence tokens.length filling.chart.created trees.length
        ⟨.ok trees, (filling.log summary).events.toList⟩
    | .error (.unknownToken filling) => ⟨.ok [], filling.events.toList⟩
    | .error (.overBudget limit filling) =>
        ⟨.error (.budgetExceeded limit), filling.events.toList⟩

/-- Parse a sentence within a budget. -/
def parse (grammar : Grammar) (budget : Budget) (tokens : List Token) : ParseResult :=
  (grammar.parseLogged budget tokens).result

/-- Every derivation of a sentence. Without a limit a parse always has an answer. -/
def parses (grammar : Grammar) (tokens : List Token) : List Tree :=
  match grammar.parse .unlimited tokens with
  | .ok trees => trees
  | .error _ => []

end Grammar

end ChartParser
