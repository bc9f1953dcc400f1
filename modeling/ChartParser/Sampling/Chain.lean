import ChartParser.Sampling.Failure

/-!
# Chains of symbols

A derivation goes from a symbol to the children of a binary rule of it, from these to
theirs, and so on. Where a chain of symbols is too long, or ends in one without rules,
no derivation that follows it can be drawn.
-/

namespace ChartParser.Grammar

/-- A symbol stands on the right of a binary rule of another one. -/
def HasChild (grammar : Grammar) (parent child : Symbol) : Prop :=
  ∃ expansion ∈ grammar.expansions parent, child = expansion.left ∨ child = expansion.right

/-- There is a chain of so many symbols from a first to a last one, each of them but the first a
child of the one before it. -/
inductive Chain (grammar : Grammar) : Nat → Symbol → Symbol → Prop where
  | single (symbol : Symbol) : Chain grammar 1 symbol symbol
  | cons {count : Nat} {first second last : Symbol} (child : grammar.HasChild first second)
      (chain : Chain grammar count second last) : Chain grammar (count + 1) first last

/-- A chain from a symbol stands in the way of derivations with at most so many levels, out of a
limit, and leads to a failure. -/
inductive Obstructed (grammar : Grammar) (limit levels : Nat) (symbol : Symbol) :
    SamplingFailure → Prop where
  | undefined {count : Nat} {last : Symbol} (within : count ≤ levels)
      (chain : grammar.Chain count symbol last) (undefined : grammar.alternatives last = []) :
      Obstructed grammar limit levels symbol (.undefinedSymbol last)
  | tooDeep {last : Symbol} (chain : grammar.Chain (levels + 1) symbol last) :
      Obstructed grammar limit levels symbol (.tooDeep limit)

end ChartParser.Grammar
