import ChartParser.Tree.Rendering

/-!
# Trees that can be read back

A rendering writes symbols and tokens as they are, whatever they hold. A tree is
readable in a layout when none of them holds what separates the parts of its
rendering. Brackets are such a thing on one line, but not over several lines.
-/

namespace ChartParser.Tree

namespace Layout

/-- The end of a symbol can be told: a blank follows it, or a line feed where there are lines. -/
def AdmitsSymbol : Layout → Symbol → Prop
  | .flat, symbol => ' ' ∉ symbol.toList
  | .indented, symbol => ' ' ∉ symbol.toList ∧ '\n' ∉ symbol.toList

/-- The end of a token can be told, and a token is not taken for a derivation. -/
def AdmitsToken : Layout → Token → Prop
  | .flat, token => ']' ∉ token.toList ∧ token.toList.head? ≠ some '['
  | .indented, token => '\n' ∉ token.toList

instance : (layout : Layout) → DecidablePred layout.AdmitsSymbol
  | .flat, _ => inferInstanceAs (Decidable (_ ∉ _))
  | .indented, _ => inferInstanceAs (Decidable (_ ∧ _))

instance : (layout : Layout) → DecidablePred layout.AdmitsToken
  | .flat, _ => inferInstanceAs (Decidable (_ ∧ _))
  | .indented, _ => inferInstanceAs (Decidable (_ ∉ _))

end Layout

/-- Every symbol and every token of the tree is admitted in the layout. -/
def Readable (layout : Layout) : Tree → Prop
  | leaf symbol token => layout.AdmitsSymbol symbol ∧ layout.AdmitsToken token
  | node symbol left right =>
      layout.AdmitsSymbol symbol ∧ left.Readable layout ∧ right.Readable layout

/-- Whether a tree is readable can be checked. -/
def decideReadable (layout : Layout) : (tree : Tree) → Decidable (tree.Readable layout)
  | leaf _ _ => inferInstanceAs (Decidable (_ ∧ _))
  | node _ left right =>
      have := decideReadable layout left
      have := decideReadable layout right
      inferInstanceAs (Decidable (_ ∧ _ ∧ _))

instance (layout : Layout) : DecidablePred (Readable layout) :=
  decideReadable layout

end ChartParser.Tree
