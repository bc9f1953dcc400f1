import ChartParser.Tree.Rendering

/-!
# Outlines

The outline of a tree has one line for every leaf. A node has an opening line in front
of those of its children, and a closing line behind them. Each line knows how many
nodes stand above the leaf or node that it belongs to, and nothing about blanks.
-/

namespace ChartParser

namespace Text

/-- The parts of a text between its line feeds. -/
def cutLines (text : String) : List String :=
  (text.split '\n').toList.map (·.copy)

/-- A line without the blanks that it begins with. -/
def unindented (line : String) : String :=
  String.ofList (line.toList.dropWhile (· == ' '))

/-- A line that others come before on one line: with a blank in front, unless it closes a bracket
and does nothing else. -/
def continued (line : String) : String :=
  if line = "]" then line else " " ++ line

/-- Lines put on one line. -/
def onOneLine : List String → String
  | [] => ""
  | first :: later => first ++ String.join (later.map continued)

end Text

namespace Tree

/-- A line of an outline, with the number of nodes above what it shows. -/
structure OutlineLine where
  above : Nat
  text : String
deriving DecidableEq, Repr

/-- The line as it is written when the root stands at a depth. -/
def OutlineLine.written (depth : Nat) (line : OutlineLine) : String :=
  indentation (depth + line.above) ++ line.text

/-- The lines of a tree that has so many nodes above it. -/
def outlineBelow (above : Nat) : Tree → List OutlineLine
  | leaf symbol token => [⟨above, "[" ++ symbol ++ " " ++ token ++ "]"⟩]
  | node symbol left right =>
      ⟨above, "[" ++ symbol⟩ ::
        (left.outlineBelow (above + 1) ++ right.outlineBelow (above + 1) ++ [⟨above, "]"⟩])

/-- A leaf has one line. -/
@[simp] theorem mem_outlineBelow_leaf {line : OutlineLine} {above : Nat} {symbol : Symbol}
    {token : Token} :
    line ∈ (leaf symbol token).outlineBelow above ↔
      line = ⟨above, "[" ++ symbol ++ " " ++ token ++ "]"⟩ :=
  List.mem_singleton

/-- A line of a node opens it, belongs to one of its children or closes it. -/
@[simp] theorem mem_outlineBelow_node {line : OutlineLine} {above : Nat} {symbol : Symbol}
    {left right : Tree} :
    line ∈ (node symbol left right).outlineBelow above ↔
      line = ⟨above, "[" ++ symbol⟩ ∨ line ∈ left.outlineBelow (above + 1) ∨
        line ∈ right.outlineBelow (above + 1) ∨ line = ⟨above, "]"⟩ := by
  simp only [outlineBelow, List.mem_cons, List.mem_append, List.not_mem_nil, or_false, or_assoc]

/-- The lines of a tree. -/
def outline (tree : Tree) : List OutlineLine :=
  tree.outlineBelow 0

/-- No symbol and no token of the tree holds a line feed. -/
def Unbroken : Tree → Prop
  | leaf symbol token => '\n' ∉ symbol.toList ∧ '\n' ∉ token.toList
  | node symbol left right => '\n' ∉ symbol.toList ∧ left.Unbroken ∧ right.Unbroken

/-- Whether a tree is unbroken can be checked. -/
def decideUnbroken : (tree : Tree) → Decidable tree.Unbroken
  | leaf _ _ => inferInstanceAs (Decidable (_ ∧ _))
  | node _ left right =>
      have := decideUnbroken left
      have := decideUnbroken right
      inferInstanceAs (Decidable (_ ∧ _ ∧ _))

instance : DecidablePred Unbroken :=
  decideUnbroken

end Tree

end ChartParser
