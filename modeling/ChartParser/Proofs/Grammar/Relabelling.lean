import ChartParser.Relabelling
import Mathlib.Data.List.Basic

/-!
# Relabelled grammars

A history with other texts leaves the same tables and lookups with other texts: keys
that differed differ still, and so do values, so nothing is found in another place and
nothing counts as listed that was new.
-/

namespace ChartParser

namespace Table

variable {Key Value : Type} [Ord Key] [Std.TransOrd Key] {onKeys : Key → Key}
  {onValues : Value → Value} {table relabelled : Table Key Value}

/-- Under the image of every key, another table lists the images of the values. -/
def MapsTo (onKeys : Key → Key) (onValues : Value → Value) (table relabelled : Table Key Value) :
    Prop :=
  ∀ key, relabelled.listed (onKeys key) = (table.listed key).map onValues

/-- Two tables that list nothing. -/
theorem mapsTo_empty : MapsTo onKeys onValues (empty : Table Key Value) empty := by
  intro key
  simp

variable [Std.LawfulEqOrd Key] [DecidableEq Key]

/-- One more value is listed in both tables. -/
theorem MapsTo.append (mapsTo : MapsTo onKeys onValues table relabelled)
    (keysApart : Function.Injective onKeys) (key : Key) (value : Value) :
    MapsTo onKeys onValues (table.append key value)
      (relabelled.append (onKeys key) (onValues value)) := by
  intro other
  simp only [listed_append, keysApart.eq_iff, mapsTo other]
  split <;> simp

/-- A value is new in both tables, or in neither. -/
theorem MapsTo.appendNew [DecidableEq Value] (mapsTo : MapsTo onKeys onValues table relabelled)
    (keysApart : Function.Injective onKeys) (valuesApart : Function.Injective onValues) (key : Key)
    (value : Value) :
    MapsTo onKeys onValues (table.appendNew key value)
      (relabelled.appendNew (onKeys key) (onValues value)) := by
  have listed : onValues value ∈ relabelled.listed (onKeys key) ↔ value ∈ table.listed key := by
    rw [mapsTo key, List.mem_map_of_injective valuesApart]
  by_cases present : value ∈ table.listed key
  · rwa [appendNew_of_mem present, appendNew_of_mem (listed.mpr present)]
  · rw [appendNew_of_not_mem present, appendNew_of_not_mem (mt listed.mp present)]
    exact mapsTo.append keysApart key value

end Table

namespace Relabelling

/-- A grammar is another one with other texts. -/
structure Relabels (relabelling : Relabelling) (grammar relabelled : Grammar) : Prop where
  start : relabelled.start = relabelling.symbol grammar.start
  rules : grammar.rules.MapsTo relabelling.symbol relabelling.expansion relabelled.rules
  terminals : grammar.terminals.MapsTo relabelling.symbol relabelling.token relabelled.terminals
  byPair : grammar.byPair.MapsTo relabelling.expansion relabelling.symbol relabelled.byPair
  byToken : grammar.byToken.MapsTo relabelling.token relabelling.symbol relabelled.byToken

variable {relabelling : Relabelling} {grammar relabelled : Grammar}

/-- Grammars without rules differ in the text of their start symbols only. -/
theorem relabels_empty (relabelling : Relabelling) (start : Symbol) :
    relabelling.Relabels (.empty start) (.empty (relabelling.symbol start)) :=
  ⟨rfl, Table.mapsTo_empty, Table.mapsTo_empty, Table.mapsTo_empty, Table.mapsTo_empty⟩

/-- A rule is registered in both grammars, each with its own texts. -/
theorem Relabels.register (relabels : relabelling.Relabels grammar relabelled)
    (registration : Registration) :
    relabelling.Relabels (grammar.register registration)
      (relabelled.register (relabelling.registration registration)) := by
  cases registration with
  | binary name left right =>
      exact
        { relabels with
          rules := relabels.rules.append relabelling.symbol_injective name ⟨left, right⟩
          byPair := relabels.byPair.appendNew relabelling.expansion_injective
            relabelling.symbol_injective ⟨left, right⟩ name }
  | terminal name token =>
      exact
        { relabels with
          terminals := relabels.terminals.append relabelling.symbol_injective name token
          byToken := relabels.byToken.appendNew relabelling.token_injective
            relabelling.symbol_injective token name }

/-- Both grammars are changed, each with its own texts. -/
theorem Relabels.change (relabels : relabelling.Relabels grammar relabelled) (change : Change) :
    relabelling.Relabels (grammar.change change)
      (relabelled.change (relabelling.change change)) := by
  cases change with
  | register registration => exact relabels.register registration
  | startWith start => exact { relabels with start := rfl }

/-- Both grammars have their histories, each with its own texts. -/
theorem Relabels.changeAll (relabels : relabelling.Relabels grammar relabelled)
    (history : List Change) :
    relabelling.Relabels (grammar.changeAll history)
      (relabelled.changeAll (history.map relabelling.change)) := by
  induction history generalizing grammar relabelled with
  | nil => exact relabels
  | cons change later inductionHypothesis => exact inductionHypothesis (relabels.change change)

namespace Relabels

/-- The same names are found for a pair, with other texts and in the same order. -/
theorem namesForPair (relabels : relabelling.Relabels grammar relabelled) (left right : Symbol) :
    relabelled.namesForPair (relabelling.symbol left) (relabelling.symbol right) =
      (grammar.namesForPair left right).map relabelling.symbol :=
  relabels.byPair ⟨left, right⟩

/-- The same names are found for a token, with other texts and in the same order. -/
theorem namesForToken (relabels : relabelling.Relabels grammar relabelled) (token : Token) :
    relabelled.namesForToken (relabelling.token token) =
      (grammar.namesForToken token).map relabelling.symbol :=
  relabels.byToken token

/-- A name has the same alternatives, with other texts and in the same order. -/
theorem alternatives (relabels : relabelling.Relabels grammar relabelled) (name : Symbol) :
    relabelled.alternatives (relabelling.symbol name) =
      (grammar.alternatives name).map relabelling.alternative := by
  have expansions : relabelled.expansions (relabelling.symbol name) =
      (grammar.expansions name).map relabelling.expansion := relabels.rules name
  have tokens : relabelled.tokensOf (relabelling.symbol name) =
      (grammar.tokensOf name).map relabelling.token := relabels.terminals name
  rw [Grammar.alternatives, Grammar.alternatives, expansions, tokens, List.map_append]
  simp only [List.map_map]
  rfl

end Relabels

end Relabelling

end ChartParser
