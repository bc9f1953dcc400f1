import ChartParser.Tree.Basic

/-!
# Bracketings

A bracketing is the shape of a binary tree, without any text. With one name and one
token it is the shape of exactly one tree.
-/

namespace ChartParser

/-- A way to put brackets around places in a row, two parts in each pair of brackets. -/
inductive Bracketing where
  | place
  | pair (left right : Bracketing)
deriving DecidableEq, Repr

namespace Bracketing

/-- The number of places. -/
def size : Bracketing → Nat
  | place => 1
  | pair left right => left.size + right.size

/-- The tree of this shape with one name everywhere and one token at every place. -/
def tree (name : Symbol) (token : Token) : Bracketing → Tree
  | place => .leaf name token
  | pair left right => .node name (left.tree name token) (right.tree name token)

/-- The name stands at the root. -/
@[simp] theorem symbol_tree (name : Symbol) (token : Token) (bracketing : Bracketing) :
    (bracketing.tree name token).symbol = name := by
  cases bracketing <;> rfl

/-- The token stands at every place. -/
@[simp] theorem leaves_tree (name : Symbol) (token : Token) (bracketing : Bracketing) :
    (bracketing.tree name token).leaves = List.replicate bracketing.size token := by
  induction bracketing with
  | place => rfl
  | pair left right leftHypothesis rightHypothesis =>
      rw [tree, Tree.leaves, leftHypothesis, rightHypothesis, List.replicate_append_replicate, size]

/-- Different bracketings are the shapes of different trees. -/
theorem tree_injective (name : Symbol) (token : Token) :
    Function.Injective (tree name token) := by
  intro first second same
  induction first generalizing second with
  | place =>
      cases second with
      | place => rfl
      | pair left right => cases same
  | pair left right leftHypothesis rightHypothesis =>
      cases second with
      | place => cases same
      | pair otherLeft otherRight =>
          injection same with _ lefts rights
          rw [leftHypothesis lefts, rightHypothesis rights]

end Bracketing

end ChartParser
