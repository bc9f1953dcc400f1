import ChartParser.Grammar.Basic

/-!
# Sentential forms

A sentential form is a sequence of symbols and tokens. A step puts one of its
alternatives in the place of a symbol; a leftmost step does so to a symbol that
has only tokens before it.
-/

namespace ChartParser

/-- A symbol that is still to be expanded, or a token. The two are kept apart even when they are
spelled alike. -/
inductive Piece where
  | symbol (symbol : Symbol)
  | token (token : Token)
deriving DecidableEq, Repr

/-- A sequence of symbols and tokens. -/
abbrev SententialForm := List Piece

/-- What an alternative puts in the place of a name. -/
def Alternative.form : Alternative → SententialForm
  | .pair expansion => [.symbol expansion.left, .symbol expansion.right]
  | .token word => [.token word]

namespace Grammar

/-- One symbol of a form is expanded by one of its alternatives. -/
inductive Step (grammar : Grammar) : SententialForm → SententialForm → Prop where
  | expand (before after : SententialForm) {name : Symbol} {alternative : Alternative}
      (registered : alternative ∈ grammar.alternatives name) :
      Step grammar (before ++ .symbol name :: after) (before ++ alternative.form ++ after)

/-- The leftmost symbol of a form is expanded by one of its alternatives. -/
inductive LeftmostStep (grammar : Grammar) : SententialForm → SententialForm → Prop where
  | expand (before : List Token) (after : SententialForm) {name : Symbol}
      {alternative : Alternative} (registered : alternative ∈ grammar.alternatives name) :
      LeftmostStep grammar (before.map .token ++ .symbol name :: after)
        (before.map .token ++ alternative.form ++ after)

/-- Some number of steps leads from one form to another. -/
inductive Leads (grammar : Grammar) : SententialForm → SententialForm → Prop where
  | refl (form : SententialForm) : Leads grammar form form
  | step {first next last : SententialForm} (step : grammar.Step first next)
      (rest : grammar.Leads next last) : Leads grammar first last

/-- The forms that a leftmost derivation goes through, from the first form to the last one. -/
inductive LeftmostDerivation (grammar : Grammar) :
    SententialForm → SententialForm → List SententialForm → Prop where
  | refl (form : SententialForm) : LeftmostDerivation grammar form form [form]
  | step {first next last : SententialForm} {forms : List SententialForm}
      (step : grammar.LeftmostStep first next)
      (rest : grammar.LeftmostDerivation next last forms) :
      LeftmostDerivation grammar first last (first :: forms)

/-- A leftmost step is a step. -/
theorem LeftmostStep.toStep {grammar : Grammar} {first next : SententialForm}
    (step : grammar.LeftmostStep first next) : grammar.Step first next := by
  cases step with
  | expand before after registered => exact .expand (before.map .token) after registered

/-- A leftmost derivation leads from its first form to its last one. -/
theorem LeftmostDerivation.leads {grammar : Grammar} {first last : SententialForm}
    {forms : List SententialForm} (derivation : grammar.LeftmostDerivation first last forms) :
    grammar.Leads first last := by
  induction derivation with
  | refl form => exact .refl form
  | step step _ inductionHypothesis => exact .step step.toStep inductionHypothesis

end Grammar

end ChartParser
