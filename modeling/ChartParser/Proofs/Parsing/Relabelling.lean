import ChartParser.Proofs.Grammar.Relabelling
import ChartParser.Proofs.Parsing.Outcome

/-!
# Parsing with a relabelled grammar

A relabelled sentence is derived as the sentence is, tree by tree and in the same
order, and needs as many entries.
-/

namespace ChartParser.Relabelling.Relabels

open Grammar

variable {relabelling : Relabelling} {grammar relabelled : Grammar}

/-- A relabelled token is derived from the relabelled names. -/
theorem tokenDerivations (relabels : relabelling.Relabels grammar relabelled) (token : Token) :
    relabelled.tokenDerivations (relabelling.token token) =
      (grammar.tokenDerivations token).map relabelling.tree := by
  simp only [Grammar.tokenDerivations, relabels.namesForToken, List.map_map]
  rfl

/-- Relabelled derivations of neighbouring spans are combined as the derivations are. -/
theorem combine (relabels : relabelling.Relabels grammar relabelled) (lefts rights : List Tree) :
    relabelled.combine (lefts.map relabelling.tree) (rights.map relabelling.tree) =
      (grammar.combine lefts rights).map relabelling.tree := by
  simp only [Grammar.combine, List.flatMap_map, List.map_flatMap, symbol_tree,
    relabels.namesForPair, List.map_map]
  rfl

/-- A relabelled span is derived as the span is, in the same order. -/
theorem derivations (relabels : relabelling.Relabels grammar relabelled) (tokens : List Token)
    (span : Span) :
    relabelled.derivations (tokens.map relabelling.token) span =
      (grammar.derivations tokens span).map relabelling.tree := by
  induction span using Grammar.derivations.induct with
  | case1 span one =>
      rw [Grammar.derivations, Grammar.derivations, if_pos one, if_pos one, List.getElem?_map]
      cases tokens[span.start]? with
      | none => rfl
      | some token => exact relabels.tokenDerivations token
  | case2 span longer leftHypothesis rightHypothesis =>
      rw [derivations_of_longer longer, derivations_of_longer longer, List.map_flatMap]
      apply List.flatMap_congr
      intro middle inside
      rw [leftHypothesis middle inside, rightHypothesis middle inside, relabels.combine]

/-- The derivations from the start symbol are those from the relabelled one. -/
theorem startDerivations (relabels : relabelling.Relabels grammar relabelled)
    (tokens : List Token) :
    relabelled.startDerivations (tokens.map relabelling.token) =
      (grammar.startDerivations tokens).map relabelling.tree := by
  -- A tree is kept for its root, and no other root has the text of the relabelled start symbol.
  have atRoot : ((fun tree : Tree => decide (tree.symbol = relabelled.start)) ∘ relabelling.tree) =
      fun tree => decide (tree.symbol = grammar.start) := by
    funext tree
    simp only [Function.comp_apply, symbol_tree, relabels.start,
      relabelling.symbol_injective.eq_iff]
  rw [Grammar.startDerivations, Grammar.startDerivations, List.length_map, relabels.derivations,
    List.filter_map, atRoot]

/-- A token is known exactly when the relabelled one is. -/
theorem namesForToken_eq_nil_iff (relabels : relabelling.Relabels grammar relabelled)
    (token : Token) :
    relabelled.namesForToken (relabelling.token token) = [] ↔ grammar.namesForToken token = [] := by
  rw [relabels.namesForToken, List.map_eq_nil_iff]

/-- The same spans are visited. -/
theorem visited (relabels : relabelling.Relabels grammar relabelled) (tokens : List Token) :
    relabelled.visited (tokens.map relabelling.token) = grammar.visited tokens := by
  simp only [Grammar.visited, List.forall_mem_map, List.findIdx_map, Function.comp_def,
    relabels.namesForToken_eq_nil_iff, List.length_map, ne_eq]

/-- A parse needs as many entries. -/
theorem demand (relabels : relabelling.Relabels grammar relabelled) (tokens : List Token) :
    relabelled.demand (tokens.map relabelling.token) = grammar.demand tokens := by
  simp only [Grammar.demand, entryCount, relabels.visited, relabels.derivations, List.length_map]

/-- A parse of a relabelled sentence has the relabelled answer, or exceeds the same limit. -/
theorem parse (relabels : relabelling.Relabels grammar relabelled) (budget : Budget)
    (tokens : List Token) :
    relabelled.parse budget (tokens.map relabelling.token) =
      (grammar.parse budget tokens).map (List.map relabelling.tree) := by
  rw [parse_eq, parse_eq, relabels.demand, relabels.startDerivations]
  cases budget with
  | unlimited => rfl
  | entries limit =>
      simp only [Budget.answer]
      split <;> rfl

end ChartParser.Relabelling.Relabels
