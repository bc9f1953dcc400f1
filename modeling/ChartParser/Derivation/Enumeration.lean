import ChartParser.Chart.Span
import ChartParser.Tree.Basic

/-!
# Derivations without a chart

The derivations of a span can be listed from those of its parts, with no chart
to look them up in: by split position, then by the derivation of the left part,
then by that of the right part, then by the names of the pair.
-/

namespace ChartParser.Grammar

/-- Every derivation of one token. -/
def tokenDerivations (grammar : Grammar) (token : Token) : List Tree :=
  (grammar.namesForToken token).map fun name => .leaf name token

/-- Every derivation of two neighbouring spans that puts one name over a derivation of each. -/
def combine (grammar : Grammar) (lefts rights : List Tree) : List Tree :=
  lefts.flatMap fun left =>
    rights.flatMap fun right =>
      (grammar.namesForPair left.symbol right.symbol).map fun name => .node name left right

/-- Every derivation of a span of a sentence, from any symbol. -/
def derivations (grammar : Grammar) (tokens : List Token) (span : Span) : List Tree :=
  if span.width = 1 then
    tokens[span.start]?.elim [] grammar.tokenDerivations
  else
    span.splits.attach.flatMap fun ⟨middle, inside⟩ =>
      have := Span.mem_splits.mp inside
      grammar.combine (grammar.derivations tokens ⟨span.start, middle⟩)
        (grammar.derivations tokens ⟨middle, span.stop⟩)
termination_by span.width
decreasing_by
  all_goals
    simp only [Span.width]
    omega

variable {grammar : Grammar} {tokens : List Token}

/-- A combination of two derivations is a node over both, with a name of their pair. -/
theorem mem_combine {lefts rights : List Tree} {tree : Tree} :
    tree ∈ grammar.combine lefts rights ↔
      ∃ left ∈ lefts, ∃ right ∈ rights,
        ∃ name ∈ grammar.namesForPair left.symbol right.symbol, .node name left right = tree := by
  simp only [combine, List.mem_flatMap, List.mem_map]

/-- The span of a position is derived by the names of the token there. -/
theorem derivations_single {position : Nat} (inBounds : position < tokens.length) :
    grammar.derivations tokens (.single position) =
      grammar.tokenDerivations tokens[position] := by
  have one : (Span.single position).width = 1 := by simp [Span.single, Span.width]
  rw [derivations, if_pos one]
  simp [Span.single, inBounds]

/-- A longer span is derived from its two sides at every split position in turn. -/
theorem derivations_of_longer {span : Span} (longer : span.width ≠ 1) :
    grammar.derivations tokens span = span.splits.flatMap fun middle =>
      grammar.combine (grammar.derivations tokens ⟨span.start, middle⟩)
        (grammar.derivations tokens ⟨middle, span.stop⟩) := by
  rw [derivations, if_neg longer]
  simp only [List.flatMap_subtype, List.unattach_attach]

end ChartParser.Grammar
