import ChartParser.Proofs.Parsing.Exactness
import ChartParser.Proofs.Sampling.Drawing
import Mathlib.Data.UInt

/-!
# Drawn derivations are parsed back

A derivation that is drawn from a symbol is one of the parses of its own
sentence from that symbol, however the choices were made.
-/

namespace ChartParser.Grammar

variable {Source : Type} {grammar : Grammar} {symbol : Symbol} {limit : Nat} {tree : Tree}

/-- A derivation that is drawn from a symbol starts with the symbol, keeps to the limit, and is
listed once among the parses of its sentence from the symbol. -/
theorem drawn_is_parsed_back (reachable : grammar.Reachable) (choose : Chooser Source)
    (source : Source) (drawn : (grammar.drawBy choose symbol limit source).result = .ok tree) :
    tree.symbol = symbol ∧ tree.depth ≤ limit ∧
      ∃ trees, (grammar.withStart symbol).parse .unlimited tree.leaves = .ok trees ∧
        trees.count tree = 1 := by
  obtain ⟨rest, whole⟩ :
      ∃ rest, grammar.drawWithin choose limit limit symbol source = ⟨.ok tree, rest⟩ :=
    ⟨(grammar.drawBy choose symbol limit source).source, by rw [← drawn]; rfl⟩
  obtain ⟨root, shallow, licensed⟩ := drawWithin_eq_ok whole
  refine ⟨root, shallow, (grammar.withStart symbol).startDerivations tree.leaves,
    parse_unlimited _ _, ?_⟩
  have consistent := (reachable.withStart symbol).consistent
  have derives : tree.Derives (grammar.withStart symbol) symbol tree.leaves :=
    ⟨root, rfl, (tree.licensed_withStart grammar symbol).mpr licensed⟩
  exact List.count_eq_one_of_mem (consistent.nodup_startDerivations tree.leaves_ne_nil)
    ((consistent.mem_startDerivations tree.leaves_ne_nil tree).mpr derives)

/-- The words of a stream choose a bracketing of two tokens, and it is parsed back. -/
theorem bracketing_is_parsed_back :
    bracketing.Reachable ∧
      (bracketing.drawFrom "S" 2 (WordStream.ofList [0, 2 ^ 63, 2 ^ 63]).source).result =
        .ok (.node "S" (.leaf "S" "a") (.leaf "S" "a")) ∧
      ∃ trees, (bracketing.withStart "S").parse .unlimited ["a", "a"] = .ok trees ∧
        trees.count (.node "S" (.leaf "S" "a") (.leaf "S" "a")) = 1 := by
  have drawn : (bracketing.drawFrom "S" 2 (WordStream.ofList [0, 2 ^ 63, 2 ^ 63]).source).result =
      .ok (.node "S" (.leaf "S" "a") (.leaf "S" "a")) := by
    decide +kernel
  exact ⟨reachable_bracketing, drawn,
    (drawn_is_parsed_back reachable_bracketing WordSource.below _ drawn).2.2⟩

end ChartParser.Grammar
