import ChartParser.Tree.Basic

/-!
# Licensed trees

A tree is licensed by a grammar when the grammar has a rule for every leaf and
every node of it. Which start symbol the grammar has does not matter.
-/

namespace ChartParser.Tree

/-- Every leaf is a terminal rule of the grammar, and every node a binary rule. -/
def Licensed (grammar : Grammar) : Tree → Prop
  | leaf symbol token => token ∈ grammar.tokensOf symbol
  | node symbol left right =>
      ⟨left.symbol, right.symbol⟩ ∈ grammar.expansions symbol ∧
        left.Licensed grammar ∧ right.Licensed grammar

/-- Whether a tree is licensed can be checked. -/
def decideLicensed (grammar : Grammar) : (tree : Tree) → Decidable (tree.Licensed grammar)
  | leaf symbol token => inferInstanceAs (Decidable (token ∈ grammar.tokensOf symbol))
  | node symbol left right =>
      have := decideLicensed grammar left
      have := decideLicensed grammar right
      inferInstanceAs (Decidable (Expansion.mk left.symbol right.symbol ∈
        grammar.expansions symbol ∧ left.Licensed grammar ∧ right.Licensed grammar))

instance (grammar : Grammar) : DecidablePred (Licensed grammar) :=
  decideLicensed grammar

/-- Which start symbol the grammar has does not matter. -/
@[simp] theorem licensed_withStart (grammar : Grammar) (start : Symbol) (tree : Tree) :
    tree.Licensed (grammar.withStart start) ↔ tree.Licensed grammar := by
  induction tree with
  | leaf symbol token => rfl
  | node symbol left right leftHypothesis rightHypothesis =>
      rw [Licensed, Licensed, leftHypothesis, rightHypothesis]
      rfl

/-- A tree that derives a sentence from a symbol. -/
def Derives (grammar : Grammar) (symbol : Symbol) (tokens : List Token) (tree : Tree) : Prop :=
  tree.symbol = symbol ∧ tree.leaves = tokens ∧ tree.Licensed grammar

end ChartParser.Tree
