import ChartParser.Grammar.Basic

/-!
# Derivation trees

A leaf records that a name expands to a token, a node that a name expands to
the symbols at the roots of its two children.
-/

namespace ChartParser

/-- A derivation in a grammar in Chomsky normal form, children in sentence order. -/
inductive Tree where
  | leaf (symbol : Symbol) (token : Token)
  | node (symbol : Symbol) (left right : Tree)
deriving DecidableEq, Repr

namespace Tree

/-- The name at the root. -/
def symbol : Tree → Symbol
  | leaf symbol _ => symbol
  | node symbol _ _ => symbol

/-- The tokens that the tree derives, left to right. -/
def leaves : Tree → List Token
  | leaf _ token => [token]
  | node _ left right => left.leaves ++ right.leaves

/-- The number of rules on the longest way from the root to a token. -/
def depth : Tree → Nat
  | leaf _ _ => 1
  | node _ left right => 1 + max left.depth right.depth

/-- Every tree derives at least one token. -/
theorem leaves_ne_nil (tree : Tree) : tree.leaves ≠ [] := by
  induction tree with
  | leaf symbol token => simp [leaves]
  | node symbol left right leftNonempty rightNonempty => simp [leaves, leftNonempty]

end Tree

end ChartParser
