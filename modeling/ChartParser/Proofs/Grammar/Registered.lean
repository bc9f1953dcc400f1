import ChartParser.Proofs.Grammar.Growth
import ChartParser.Proofs.Grammar.Lookup

/-!
# Registered rules

A rule is registered in a grammar when it stands in its tables. A history leaves
exactly the rules that it registers, and registering one of them again changes no
lookup.
-/

namespace ChartParser

namespace Grammar

/-- The rule stands in the table of its kind. -/
def Registered (grammar : Grammar) : Registration → Prop
  | .binary name left right => ⟨left, right⟩ ∈ grammar.expansions name
  | .terminal name token => token ∈ grammar.tokensOf name

/-- Two grammars have the same start symbol and the same lookups, whatever their tables hold. -/
structure SameLookups (first second : Grammar) : Prop where
  start : first.start = second.start
  byPair : first.byPair = second.byPair
  byToken : first.byToken = second.byToken

variable {grammar first second : Grammar} {registration : Registration}

/-- No rule is registered in an empty grammar. -/
theorem not_registered_empty (start : Symbol) (registration : Registration) :
    ¬ (empty start).Registered registration := by
  cases registration <;> simp [Registered, expansions, tokensOf, empty]

/-- A change registers its own rule and keeps the others. -/
theorem registered_change (grammar : Grammar) (change : Change) :
    (grammar.change change).Registered registration ↔
      grammar.Registered registration ∨ change = .register registration := by
  cases change with
  | register other =>
      cases registration with
      | binary name left right =>
          simp only [Registered, Grammar.change, mem_expansions_register, Change.register.injEq]
      | terminal name token =>
          simp only [Registered, Grammar.change, mem_tokensOf_register, Change.register.injEq]
  | startWith start => cases registration <;> simp [Registered, Grammar.change] <;> rfl

/-- A history registers its own rules and keeps those from before it. -/
theorem registered_changeAll (grammar : Grammar) (history : List Change) :
    (grammar.changeAll history).Registered registration ↔
      grammar.Registered registration ∨ .register registration ∈ history := by
  induction history generalizing grammar with
  | nil => simp [changeAll]
  | cons change later inductionHypothesis =>
      have rest := inductionHypothesis (grammar.change change)
      rw [registered_change] at rest
      rw [List.mem_cons, eq_comm (b := change), ← or_assoc]
      exact rest

/-- A rule that is registered already changes no lookup. -/
theorem Consistent.sameLookups_register (consistent : grammar.Consistent)
    (registered : grammar.Registered registration) :
    (grammar.register registration).SameLookups grammar := by
  cases registration with
  | binary name left right =>
      have found := (consistent.mem_namesForPair left right name).mpr registered
      exact ⟨rfl, Table.appendNew_of_mem found, rfl⟩
  | terminal name token =>
      have found := (consistent.mem_namesForToken token name).mpr registered
      exact ⟨rfl, rfl, Table.appendNew_of_mem found⟩

/-- The same change keeps the same lookups. -/
theorem SameLookups.change (same : first.SameLookups second) (change : Change) :
    (first.change change).SameLookups (second.change change) := by
  obtain ⟨start, byPair, byToken⟩ := same
  cases change with
  | register registration =>
      cases registration with
      | binary name left right =>
          refine ⟨start, ?_, byToken⟩
          simp only [Grammar.change, register, addBinary, byPair]
      | terminal name token =>
          refine ⟨start, byPair, ?_⟩
          simp only [Grammar.change, register, addTerminal, byToken]
  | startWith start => exact ⟨rfl, byPair, byToken⟩

/-- The same history keeps the same lookups. -/
theorem SameLookups.changeAll (same : first.SameLookups second) (history : List Change) :
    (first.changeAll history).SameLookups (second.changeAll history) := by
  induction history generalizing first second with
  | nil => exact same
  | cons change later inductionHypothesis => exact inductionHypothesis (same.change change)

/-- A grammar grows into another one with the same lookups. -/
theorem SameLookups.growsInto (same : first.SameLookups second) : first.GrowsInto second := by
  constructor
  · intro token
    simp only [namesForToken, same.byToken, List.prefix_refl]
  · intro left right
    simp only [namesForPair, same.byPair, List.prefix_refl]

/-- Having the same lookups goes both ways. -/
theorem SameLookups.symm (same : first.SameLookups second) : second.SameLookups first :=
  ⟨same.start.symm, same.byPair.symm, same.byToken.symm⟩

end Grammar

end ChartParser
