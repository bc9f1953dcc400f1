import ChartParser.Sampling.Failure
import ChartParser.Sampling.Uniform
import ChartParser.Tree.Basic

/-!
# Random derivations

A derivation is drawn from the root down. Every name is expanded to one of its
alternatives, the left child before the right one. A failure of the left child
ends everything. How to choose is left open; `drawFrom` makes every choice from
the words of a stream, all alternatives equally likely.
-/

namespace ChartParser

/-- A way to choose a number below a count from a source of choices, as long as the source has one
to give. -/
abbrev Chooser (Source : Type) :=
  Source → (count : Nat) → 0 < count → Option (Fin count) × Source

/-- What came of drawing a derivation, and what is left of the source. -/
structure Draw (Source : Type) where
  result : Except SamplingFailure Tree
  source : Source

namespace Grammar

variable {Source : Type}

/-- Draw what an alternative puts below a symbol, by a way to draw the children. -/
def drawAlternative (drawChild : Symbol → Source → Draw Source) (symbol : Symbol) :
    Alternative → Source → Draw Source
  | .token token, source => ⟨.ok (.leaf symbol token), source⟩
  | .pair expansion, source =>
      match drawChild expansion.left source with
      | ⟨.error failure, source⟩ => ⟨.error failure, source⟩
      | ⟨.ok left, source⟩ =>
          match drawChild expansion.right source with
          | ⟨.error failure, source⟩ => ⟨.error failure, source⟩
          | ⟨.ok right, source⟩ => ⟨.ok (.node symbol left right), source⟩

/-- Draw a derivation of a symbol with at most so many levels, out of a limit that is named when it
is exceeded. -/
def drawWithin (grammar : Grammar) (choose : Chooser Source) (limit : Nat) :
    Nat → Symbol → Source → Draw Source
  | 0, _, source => ⟨.error (.tooDeep limit), source⟩
  | levels + 1, symbol, source =>
      let alternatives := grammar.alternatives symbol
      if defined : 0 < alternatives.length then
        match choose source alternatives.length defined with
        | (none, source) => ⟨.error .noAcceptableWord, source⟩
        | (some choice, source) =>
            drawAlternative (grammar.drawWithin choose limit levels) symbol alternatives[choice]
              source
      else
        ⟨.error (.undefinedSymbol symbol), source⟩

/-- Draw a derivation of a symbol that is no deeper than a limit, by some way to choose. -/
def drawBy (grammar : Grammar) (choose : Chooser Source) (symbol : Symbol) (limit : Nat)
    (source : Source) : Draw Source :=
  grammar.drawWithin choose limit limit symbol source

/-- Draw a derivation of a symbol that is no deeper than a limit, from the words of a stream. -/
def drawFrom (grammar : Grammar) (symbol : Symbol) (limit : Nat) (source : WordSource) :
    Draw WordSource :=
  grammar.drawBy WordSource.below symbol limit source

/-- Draw a derivation of the start symbol that is no deeper than a limit. -/
def draw (grammar : Grammar) (limit : Nat) (source : WordSource) : Draw WordSource :=
  grammar.drawFrom grammar.start limit source

/-- The depth that is allowed unless another is asked for. -/
def defaultDepth : Nat := 32

end Grammar

end ChartParser
