import ChartParser.Proofs.Parsing.Relabelling
import ChartParser.Proofs.Sampling.Drawing
import Mathlib.Logic.Equiv.Basic

/-!
# Drawing with a relabelled grammar

A choice is made among as many alternatives, from the same source, so the same
alternative is chosen with other texts, and a relabelled derivation is drawn or the
same failure is met. No text of a symbol or a token is special to a grammar.
-/

namespace ChartParser

/-- A choice below a count is a choice below an equal count. -/
theorem choose_of_eq {Source : Type} (choose : Chooser Source) {count other : Nat}
    (same : other = count) {positive : 0 < count} {source next : Source}
    {choice : Option (Fin count)} (chosen : choose source count positive = (choice, next)) :
    choose source other (same ▸ positive) = (choice.map (Fin.cast same.symm), next) := by
  subst same
  simp [chosen]

namespace Relabelling

open Grammar

variable {Source : Type} {relabelling : Relabelling} {grammar relabelled : Grammar}
  {choose : Chooser Source} {limit levels : Nat} {symbol : Symbol} {source next : Source}
  {draw : Draw Source}

namespace Relabels

/-- A name has as many alternatives as before. -/
theorem length_alternatives (relabels : relabelling.Relabels grammar relabelled)
    (name : Symbol) :
    (relabelled.alternatives (relabelling.symbol name)).length =
      (grammar.alternatives name).length := by
  rw [relabels.alternatives, List.length_map]

/-- The relabelled alternative is chosen where the alternative is. -/
theorem exists_chosen (relabels : relabelling.Relabels grammar relabelled)
    {defined : 0 < (grammar.alternatives symbol).length}
    {choice : Fin (grammar.alternatives symbol).length}
    (chosen : choose source (grammar.alternatives symbol).length defined = (some choice, next)) :
    ∃ defined, ∃ other : Fin (relabelled.alternatives (relabelling.symbol symbol)).length,
      choose source (relabelled.alternatives (relabelling.symbol symbol)).length defined =
          (some other, next) ∧
        (relabelled.alternatives (relabelling.symbol symbol)).get other =
          relabelling.alternative ((grammar.alternatives symbol).get choice) := by
  refine ⟨_, _, choose_of_eq choose (relabels.length_alternatives symbol) chosen, ?_⟩
  simp [relabels.alternatives]

/-- Whatever comes of drawing a derivation comes, relabelled, of drawing one of the relabelled
symbol, and leaves the same source. -/
theorem drawing (relabels : relabelling.Relabels grammar relabelled)
    (drawing : grammar.Drawing choose limit levels symbol source draw) :
    relabelled.Drawing choose limit levels (relabelling.symbol symbol) source
      (relabelling.draw draw) := by
  induction drawing with
  | tooDeep symbol source => exact .tooDeep _ _
  | undefined source undefined =>
      exact .undefined _ (by rw [relabels.alternatives, undefined, List.map_nil])
  | @unchosen _ symbol _ _ _ chosen =>
      exact .unchosen (choose_of_eq choose (relabels.length_alternatives symbol) chosen)
  | token chosen picked =>
      obtain ⟨_, _, chosen, same⟩ := relabels.exists_chosen chosen
      exact .token chosen (by rw [same, picked]; rfl)
  | leftFailed chosen picked _ leftHypothesis =>
      obtain ⟨_, _, chosen, same⟩ := relabels.exists_chosen chosen
      exact .leftFailed chosen (by rw [same, picked]; rfl) leftHypothesis
  | rightFailed chosen picked _ _ leftHypothesis rightHypothesis =>
      obtain ⟨_, _, chosen, same⟩ := relabels.exists_chosen chosen
      exact .rightFailed chosen (by rw [same, picked]; rfl) leftHypothesis rightHypothesis
  | pair chosen picked _ _ leftHypothesis rightHypothesis =>
      obtain ⟨_, _, chosen, same⟩ := relabels.exists_chosen chosen
      exact .pair chosen (by rw [same, picked]; rfl) leftHypothesis rightHypothesis

/-- Drawing a derivation of a relabelled symbol gives the relabelled result and leaves the same
source. -/
theorem drawBy (relabels : relabelling.Relabels grammar relabelled) (choose : Chooser Source)
    (symbol : Symbol) (limit : Nat) (source : Source) :
    relabelled.drawBy choose (relabelling.symbol symbol) limit source =
      relabelling.draw (grammar.drawBy choose symbol limit source) :=
  (relabels.drawing (drawWithin_eq_iff.mp rfl)).drawWithin_eq

end Relabels

/-- No symbol and no token is special. A grammar whose history has other texts for symbols and
tokens, never the same one for two of them, parses a sentence with other texts to the same parses,
in the same order, or exceeds the same limit. It also draws the same derivations, or fails in the
same way, from the same words of a stream. -/
theorem parses_and_draws_alike (relabelling : Relabelling) (start : Symbol)
    (history : List Change) :
    (∀ budget tokens,
      ((empty (relabelling.symbol start)).changeAll (history.map relabelling.change)).parse budget
          (tokens.map relabelling.token) =
        (((empty start).changeAll history).parse budget tokens).map
          (List.map relabelling.tree)) ∧
      ∀ symbol limit source,
        ((empty (relabelling.symbol start)).changeAll (history.map relabelling.change)).drawFrom
            (relabelling.symbol symbol) limit source =
          relabelling.draw (((empty start).changeAll history).drawFrom symbol limit source) := by
  have relabels := (relabelling.relabels_empty start).changeAll history
  exact ⟨relabels.parse, relabels.drawBy WordSource.below⟩

/-- The empty text is exchanged with the start symbol of bracketings, and every token ends in a
blank and a bracket. -/
def nameless : Relabelling where
  symbol := Equiv.swap "S" ""
  token := fun token => token ++ " )"
  symbol_injective := (Equiv.swap "S" "").injective
  token_injective := fun _ _ same => (String.append_left_inj " )").mp same

/-- Bracketings without a name are parsed like those with one, and the name that they had cannot be
drawn any more. -/
theorem nameless_bracketings :
    ((empty "").registerAll [.binary "" "" "", .terminal "" "a )"]).parse .unlimited
          ["a )", "a )"] =
        .ok [.node "" (.leaf "" "a )") (.leaf "" "a )")] ∧
      ∀ source,
        ((empty "").registerAll [.binary "" "" "", .terminal "" "a )"]).drawFrom "S" 3 source =
          ⟨.error (.undefinedSymbol "S"), source⟩ := by
  have alike := parses_and_draws_alike nameless "S"
    [.register (.binary "S" "S" "S"), .register (.terminal "S" "a")]
  have parsed : ((empty "S").registerAll [.binary "S" "S" "S", .terminal "S" "a"]).parse
      .unlimited ["a", "a"] = .ok [.node "S" (.leaf "S" "a") (.leaf "S" "a")] := by
    decide +kernel
  have drawn : ∀ source,
      ((empty "S").registerAll [.binary "S" "S" "S", .terminal "S" "a"]).drawFrom "" 3 source =
        ⟨.error (.undefinedSymbol ""), source⟩ := fun _ => rfl
  constructor
  · exact (alike.1 .unlimited ["a", "a"]).trans
      (congrArg (Except.map (List.map nameless.tree)) parsed)
  · intro source
    exact (alike.2 "" 3 source).trans (congrArg nameless.draw (drawn source))

end Relabelling

end ChartParser
