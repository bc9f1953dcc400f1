import ChartParser.Grammar.History

/-!
# Lookups invert the rules

The lookups of a grammar and its tables hold the same rules: a name is found
for a right side exactly when the right side is registered under the name. One
registration keeps this, hence every history does.
-/

namespace ChartParser.Grammar

/-- The lookups find the names of every right side, each once. -/
structure Consistent (grammar : Grammar) : Prop where
  mem_namesForPair : ∀ left right name,
    name ∈ grammar.namesForPair left right ↔ ⟨left, right⟩ ∈ grammar.expansions name
  mem_namesForToken : ∀ token name,
    name ∈ grammar.namesForToken token ↔ token ∈ grammar.tokensOf name
  nodup_namesForPair : ∀ left right, (grammar.namesForPair left right).Nodup
  nodup_namesForToken : ∀ token, (grammar.namesForToken token).Nodup

/-- A registered pair of a name is a new one, or was there before. -/
theorem mem_expansions_register (grammar : Grammar) (registration : Registration)
    (name left right : Symbol) :
    ⟨left, right⟩ ∈ (grammar.register registration).expansions name ↔
      ⟨left, right⟩ ∈ grammar.expansions name ∨ registration = .binary name left right := by
  rw [expansions_register, List.mem_append, Option.mem_toList]
  cases registration with
  | binary other first second =>
      by_cases same : other = name
      · subst same
        simp [Registration.expansionOf]
      · simp [Registration.expansionOf, same]
  | terminal other token => simp [Registration.expansionOf]

/-- A registered token of a name is a new one, or was there before. -/
theorem mem_tokensOf_register (grammar : Grammar) (registration : Registration) (name : Symbol)
    (token : Token) :
    token ∈ (grammar.register registration).tokensOf name ↔
      token ∈ grammar.tokensOf name ∨ registration = .terminal name token := by
  rw [tokensOf_register, List.mem_append, Option.mem_toList]
  cases registration with
  | binary other left right => simp [Registration.tokenOf]
  | terminal other word =>
      by_cases same : other = name
      · subst same
        simp [Registration.tokenOf]
      · simp [Registration.tokenOf, same]

/-- A name found for a pair has just been registered for it, or was found before. -/
theorem mem_namesForPair_register (grammar : Grammar) (registration : Registration)
    (left right name : Symbol) :
    name ∈ (grammar.register registration).namesForPair left right ↔
      name ∈ grammar.namesForPair left right ∨ registration = .binary name left right := by
  cases registration with
  | binary other first second =>
      simp only [register, addBinary, namesForPair, Table.mem_listed_appendNew,
        Expansion.mk.injEq, Registration.binary.injEq]
      constructor <;> rintro (before | added) <;> simp_all
  | terminal other token => simp [register, addTerminal, namesForPair]

/-- A name found for a token has just been registered for it, or was found before. -/
theorem mem_namesForToken_register (grammar : Grammar) (registration : Registration)
    (token : Token) (name : Symbol) :
    name ∈ (grammar.register registration).namesForToken token ↔
      name ∈ grammar.namesForToken token ∨ registration = .terminal name token := by
  cases registration with
  | binary other left right => simp [register, addBinary, namesForToken]
  | terminal other word =>
      simp only [register, addTerminal, namesForToken, Table.mem_listed_appendNew,
        Registration.terminal.injEq]
      constructor <;> rintro (before | added) <;> simp_all

/-- The empty grammar has no rules, and its lookups find no names. -/
theorem consistent_empty (start : Symbol) : (empty start).Consistent where
  mem_namesForPair := by simp [empty, namesForPair, expansions]
  mem_namesForToken := by simp [empty, namesForToken, tokensOf]
  nodup_namesForPair := by simp [empty, namesForPair]
  nodup_namesForToken := by simp [empty, namesForToken]

/-- Registering one rule keeps tables and lookups together. -/
theorem Consistent.register {grammar : Grammar} (consistent : grammar.Consistent)
    (registration : Registration) : (grammar.register registration).Consistent where
  mem_namesForPair := by
    intro left right name
    rw [mem_namesForPair_register, mem_expansions_register, consistent.mem_namesForPair]
  mem_namesForToken := by
    intro token name
    rw [mem_namesForToken_register, mem_tokensOf_register, consistent.mem_namesForToken]
  nodup_namesForPair := by
    intro left right
    cases registration with
    | binary other first second =>
        exact Table.nodup_listed_appendNew (consistent.nodup_namesForPair left right) _ _
    | terminal other token => exact consistent.nodup_namesForPair left right
  nodup_namesForToken := by
    intro token
    cases registration with
    | binary other left right => exact consistent.nodup_namesForToken token
    | terminal other word =>
        exact Table.nodup_listed_appendNew (consistent.nodup_namesForToken token) _ _

/-- Every change keeps tables and lookups together; another start symbol touches neither. -/
theorem Consistent.change {grammar : Grammar} (consistent : grammar.Consistent)
    (change : Change) : (grammar.change change).Consistent := by
  cases change with
  | register registration => exact consistent.register registration
  | startWith start =>
      exact ⟨consistent.mem_namesForPair, consistent.mem_namesForToken,
        consistent.nodup_namesForPair, consistent.nodup_namesForToken⟩

/-- Every history keeps tables and lookups together. -/
theorem Consistent.changeAll {grammar : Grammar} (consistent : grammar.Consistent)
    (history : List Change) : (grammar.changeAll history).Consistent := by
  induction history generalizing grammar with
  | nil => exact consistent
  | cons change later inductionHypothesis => exact inductionHypothesis (consistent.change change)

/-- Whatever was registered, and in which order, the lookups of a grammar invert its rules. -/
theorem Reachable.consistent {grammar : Grammar} (reachable : grammar.Reachable) :
    grammar.Consistent := by
  obtain ⟨start, history, rfl⟩ := reachable
  exact (consistent_empty start).changeAll history

end ChartParser.Grammar
