import ChartParser.Proofs.Parsing.Exactness

/-!
# The chart agrees with the enumeration

Parses come in the order of the enumeration, which knows no chart, and a chart
that is filled to its end holds the derivations of every span in that order.
What a cell holds depends on nothing but the tokens that its span covers.
-/

namespace ChartParser.Grammar

variable {grammar : Grammar} {tokens : List Token}

/-- A chart that is filled to its end holds, for every span, the derivations of the enumeration,
and has a tree for every entry. -/
theorem treesAt_of_filled {budget : Budget} {filling : Filling}
    (filled : Filling.fill grammar budget tokens = .ok filling) {span : Span}
    (within : span.Within tokens.length) :
    filling.chart.treesAt tokens span = (grammar.derivations tokens span).map some := by
  rw [fill_eq_ok filled]
  apply Chart.treesAt_eq within
  intro part partWithin
  exact Filling.holds_reached (fun other member => Span.mem_all.mp member)
    (Span.mem_all.mpr partWithin)

/-- Parses and cells list the derivations of the enumeration in its order, and cells over the same
tokens hold the same trees, in whatever sentences and within whatever budgets. -/
theorem parse_agrees_with_enumeration (grammar : Grammar) (tokens : List Token) :
    grammar.parse .unlimited tokens =
        .ok ((grammar.derivations tokens (.whole tokens.length)).filter fun tree =>
          tree.symbol = grammar.start) ∧
      ∀ budget filling, Filling.fill grammar budget tokens = .ok filling →
        ∀ span : Span, span.Within tokens.length →
          filling.chart.treesAt tokens span = (grammar.derivations tokens span).map some ∧
          ∀ otherBudget otherTokens otherFilling,
            Filling.fill grammar otherBudget otherTokens = .ok otherFilling →
            ∀ other : Span, other.Within otherTokens.length →
              other.slice otherTokens = span.slice tokens →
              otherFilling.chart.treesAt otherTokens other =
                filling.chart.treesAt tokens span := by
  refine ⟨grammar.parse_unlimited tokens, ?_⟩
  intro budget filling filled span within
  refine ⟨treesAt_of_filled filled within, ?_⟩
  intro otherBudget otherTokens otherFilling otherFilled other otherWithin same
  rw [treesAt_of_filled filled within, treesAt_of_filled otherFilled otherWithin,
    derivations_congr otherWithin within same]

/-- Two tokens fill a chart, and the cell of both holds their only bracketing. -/
theorem bracketing_in_cell :
    ∃ filling, Filling.fill bracketing .unlimited ["a", "a"] = .ok filling ∧
      filling.chart.treesAt ["a", "a"] (.whole 2) =
        [some (.node "S" (.leaf "S" "a") (.leaf "S" "a"))] := by
  cases filled : Filling.fill bracketing .unlimited ["a", "a"] with
  | error interruption =>
      have completes : (Filling.fill bracketing .unlimited ["a", "a"]).isOk = true := by
        decide +kernel
      rw [filled] at completes
      cases completes
  | ok filling =>
      refine ⟨filling, rfl, ?_⟩
      have agrees := (parse_agrees_with_enumeration bracketing ["a", "a"]).2 .unlimited filling
        filled (.whole 2) (by decide)
      rw [agrees.1]
      decide +kernel

end ChartParser.Grammar
