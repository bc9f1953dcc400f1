import ChartParser.Grammar.Basic

/-!
# Failures of sampling

A derivation cannot be drawn when it meets a name without rules, or when it
would grow deeper than allowed.
-/

namespace ChartParser

/-- Why no derivation was drawn: a name that was reached expands to nothing, or lies below the
greatest depth allowed, or no word of the stream is acceptable, however far it is read. -/
inductive SamplingFailure where
  | undefinedSymbol (symbol : Symbol)
  | tooDeep (limit : Nat)
  | noAcceptableWord
deriving DecidableEq, Repr

/-- The failure in words. -/
def SamplingFailure.message : SamplingFailure → String
  | undefinedSymbol symbol => "No definition for nonterminal `" ++ symbol ++ "`"
  | tooDeep limit => "Derivation grew deeper than " ++ toString limit ++ " rules"
  | noAcceptableWord => "No word of the random stream can be accepted"

end ChartParser
