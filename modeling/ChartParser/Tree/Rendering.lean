import ChartParser.Tree.Basic

/-!
# Bracketed renderings

A derivation is written with one pair of brackets for every rule. The flat form
stands on one line; the indented form gives a leaf one line and a node an
opening and a closing line, children one level deeper than their parent.
-/

namespace ChartParser.Tree

/-- The derivation on one line, for instance `[S [NP dog] [VP barks]]`. -/
def flat : Tree → String
  | leaf symbol token => "[" ++ symbol ++ " " ++ token ++ "]"
  | node symbol left right => "[" ++ symbol ++ " " ++ left.flat ++ " " ++ right.flat ++ "]"

/-- The blanks in front of a line at a depth, four for every level. -/
def indentation (depth : Nat) : String :=
  String.ofList (List.replicate (4 * depth) ' ')

/-- The derivation over several lines, with the root at a given depth. No line feed follows the
last line. -/
def indentedAt (depth : Nat) : Tree → String
  | leaf symbol token => indentation depth ++ "[" ++ symbol ++ " " ++ token ++ "]"
  | node symbol left right =>
      indentation depth ++ "[" ++ symbol ++ "\n" ++
        left.indentedAt (depth + 1) ++ "\n" ++
        right.indentedAt (depth + 1) ++ "\n" ++
        indentation depth ++ "]"

/-- The derivation over several lines, with the root at the margin. -/
def indented (tree : Tree) : String :=
  tree.indentedAt 0

/-- How a derivation is shown. -/
inductive Layout where
  | flat
  | indented
deriving DecidableEq, Repr

/-- Show a derivation in a layout. -/
def render (tree : Tree) : Layout → String
  | .flat => tree.flat
  | .indented => tree.indented

end ChartParser.Tree
