import ChartParser.Grammar.History
import ChartParser.Sampling.Derivation

/-!
# Relabellings

A relabelling has another text for every symbol and for every token, and never the
same one for two symbols or for two tokens. Whatever is made of symbols and tokens is
relabelled part by part.
-/

namespace ChartParser

/-- Other texts for symbols and for tokens, no text twice for either. -/
structure Relabelling where
  symbol : Symbol → Symbol
  token : Token → Token
  symbol_injective : Function.Injective symbol
  token_injective : Function.Injective token

namespace Relabelling

/-- Relabel both symbols of an expansion. -/
def expansion (relabelling : Relabelling) (expansion : Expansion) : Expansion where
  left := relabelling.symbol expansion.left
  right := relabelling.symbol expansion.right

/-- Relabel the symbols or the token of an alternative. -/
def alternative (relabelling : Relabelling) : Alternative → Alternative
  | .pair expansion => .pair (relabelling.expansion expansion)
  | .token token => .token (relabelling.token token)

/-- Relabel both sides of a rule. -/
def registration (relabelling : Relabelling) : Registration → Registration
  | .binary name left right =>
      .binary (relabelling.symbol name) (relabelling.symbol left) (relabelling.symbol right)
  | .terminal name token => .terminal (relabelling.symbol name) (relabelling.token token)

/-- Relabel what is changed. -/
def change (relabelling : Relabelling) : Change → Change
  | .register registration => .register (relabelling.registration registration)
  | .startWith start => .startWith (relabelling.symbol start)

/-- Relabel every symbol and every token of a tree. -/
def tree (relabelling : Relabelling) : Tree → Tree
  | .leaf symbol token => .leaf (relabelling.symbol symbol) (relabelling.token token)
  | .node symbol left right =>
      .node (relabelling.symbol symbol) (relabelling.tree left) (relabelling.tree right)

/-- Relabel the symbol that a failure names. -/
def failure (relabelling : Relabelling) : SamplingFailure → SamplingFailure
  | .undefinedSymbol symbol => .undefinedSymbol (relabelling.symbol symbol)
  | .tooDeep limit => .tooDeep limit
  | .noAcceptableWord => .noAcceptableWord

/-- Relabel what has been drawn, and keep what is left of the source. -/
def draw {Source : Type} (relabelling : Relabelling) (draw : Draw Source) : Draw Source where
  result := match draw.result with
    | .ok tree => .ok (relabelling.tree tree)
    | .error failure => .error (relabelling.failure failure)
  source := draw.source

/-- Different expansions have different texts. -/
theorem expansion_injective (relabelling : Relabelling) :
    Function.Injective relabelling.expansion := by
  intro first second same
  injection same with lefts rights
  cases first
  cases second
  rw [Expansion.mk.injEq]
  exact ⟨relabelling.symbol_injective lefts, relabelling.symbol_injective rights⟩

/-- The root of a tree is relabelled like any other symbol. -/
@[simp] theorem symbol_tree (relabelling : Relabelling) (tree : Tree) :
    (relabelling.tree tree).symbol = relabelling.symbol tree.symbol := by
  cases tree <;> rfl

end Relabelling

end ChartParser
