import ChartParser.Proofs.Derivation.Rewriting
import ChartParser.Proofs.Parsing.Exactness

/-!
# Parsing recognises the language of a grammar

A sentence has parses exactly when it can be rewritten from the start symbol, and
its parses are its leftmost derivations, one for each.
-/

namespace ChartParser.Grammar

variable {grammar : Grammar}

/-- A parse without a limit has an answer. It is not empty exactly when the start symbol can be
rewritten to the sentence, and the parses, all of them distinct, stand one to one for the leftmost
derivations of the sentence. -/
theorem parses_are_leftmost_derivations (reachable : grammar.Reachable) (tokens : List Token) :
    grammar.parse .unlimited tokens = .ok (grammar.parses tokens) ∧
      (grammar.parses tokens ≠ [] ↔
        grammar.Leads [.symbol grammar.start] (tokens.map .token)) ∧
      (grammar.parses tokens).Nodup ∧
      Set.BijOn Tree.leftmostForms {tree | tree ∈ grammar.parses tokens}
        {forms | grammar.LeftmostDerivation [.symbol grammar.start] (tokens.map .token) forms} := by
  have members := reachable.consistent.mem_parses tokens
  refine ⟨by rw [parses_eq, parse_unlimited], ?_, reachable.consistent.nodup_parses tokens, ?_⟩
  · rw [leads_iff]
    constructor
    · intro nonempty
      obtain ⟨tree, member⟩ := List.exists_mem_of_ne_nil _ nonempty
      exact ⟨tree, (members tree).mp member⟩
    · rintro ⟨tree, derives⟩
      exact List.ne_nil_of_mem ((members tree).mpr derives)
  · rw [show {tree | tree ∈ grammar.parses tokens} =
      {tree | tree.Derives grammar grammar.start tokens} from Set.ext members]
    exact bijOn_leftmostForms grammar grammar.start tokens

/-- The start symbol of bracketings can be rewritten to three tokens, and leftmost in two ways: that
of the one bracketing and that of the other. -/
theorem leftmost_derivations_of_three_tokens :
    bracketing.Reachable ∧
      bracketing.Leads [.symbol "S"] [.token "a", .token "a", .token "a"] ∧
      ∀ forms, bracketing.LeftmostDerivation [.symbol "S"]
          [.token "a", .token "a", .token "a"] forms ↔
        forms = Tree.leftmostForms
            (.node "S" (.leaf "S" "a") (.node "S" (.leaf "S" "a") (.leaf "S" "a"))) ∨
          forms = Tree.leftmostForms
            (.node "S" (.node "S" (.leaf "S" "a") (.leaf "S" "a")) (.leaf "S" "a")) := by
  have parses : bracketing.parses ["a", "a", "a"] =
      [.node "S" (.leaf "S" "a") (.node "S" (.leaf "S" "a") (.leaf "S" "a")),
        .node "S" (.node "S" (.leaf "S" "a") (.leaf "S" "a")) (.leaf "S" "a")] := by
    decide +kernel
  obtain ⟨_, recognised, _, bijective⟩ :=
    parses_are_leftmost_derivations reachable_bracketing ["a", "a", "a"]
  refine ⟨reachable_bracketing, recognised.mp (by simp [parses]), ?_⟩
  intro forms
  have derived := Set.ext_iff.mp bijective.image_eq forms
  have start : bracketing.start = "S" := rfl
  simpa [parses, start, eq_comm] using derived.symm

end ChartParser.Grammar
