import ChartParser.Proofs.Grammar.Contents

/-!
# Registrations that commute

A table shows in which order values came under one key, a lookup only which of two
new names came first. So two rules can be registered in either order unless they
stand in the same listing: that of their name, or that of a right side for which
neither name is known yet.
-/

namespace ChartParser

namespace Table

variable {Key Value : Type} [Ord Key] [Std.TransOrd Key] [Std.LawfulEqOrd Key] [DecidableEq Key]
  {table : Table Key Value} {key other : Key} {value added : Value}

/-- Two values are listed in either order exactly when they have different keys or are the same. -/
theorem append_comm_iff :
    (table.append key value).append other added = (table.append other added).append key value ↔
      key ≠ other ∨ value = added := by
  constructor
  · intro same
    by_cases sameKey : key = other
    · subst sameKey
      have listings := congrArg (fun table => table.listed key) same
      simp only [listed_append, if_pos, List.append_assoc, List.append_cancel_left_eq,
        List.cons_append, List.cons.injEq] at listings
      exact Or.inr listings.1
    · exact Or.inl sameKey
  · rintro (different | rfl)
    · ext place : 1
      simp only [listed_append]
      by_cases here : key = place
      · subst here
        simp [different.symm]
      · simp [here]
    · ext place : 1
      simp only [listed_append]
      split <;> split <;> rfl

/-- Two values that are listed unless they are there go in either order exactly when they have
different keys, or are the same, or one of them is there. -/
theorem appendNew_comm_iff [DecidableEq Value] :
    (table.appendNew key value).appendNew other added =
        (table.appendNew other added).appendNew key value ↔
      key ≠ other ∨ value = added ∨ value ∈ table.listed key ∨ added ∈ table.listed key := by
  by_cases valuePresent : value ∈ table.listed key
  · have still : value ∈ (table.appendNew other added).listed key :=
      (mem_listed_appendNew ..).mpr (Or.inl valuePresent)
    rw [appendNew_of_mem valuePresent, appendNew_of_mem still]
    exact iff_of_true rfl (Or.inr (Or.inr (Or.inl valuePresent)))
  by_cases addedPresent : added ∈ table.listed other
  · have still : added ∈ (table.appendNew key value).listed other :=
      (mem_listed_appendNew ..).mpr (Or.inl addedPresent)
    rw [appendNew_of_mem addedPresent, appendNew_of_mem still]
    refine iff_of_true rfl ?_
    by_cases sameKey : key = other
    · exact Or.inr (Or.inr (Or.inr (sameKey ▸ addedPresent)))
    · exact Or.inl sameKey
  by_cases same : key = other ∧ value = added
  · obtain ⟨rfl, rfl⟩ := same
    exact iff_of_true rfl (Or.inr (Or.inl rfl))
  -- Both values are new, and neither stands in the way of the other.
  have addedNew : added ∉ (table.appendNew key value).listed other := by
    rw [mem_listed_appendNew]
    rintro (present | ⟨sameKey, sameValue⟩)
    · exact addedPresent present
    · exact same ⟨sameKey, sameValue.symm⟩
  have valueNew : value ∉ (table.appendNew other added).listed key := by
    rw [mem_listed_appendNew]
    rintro (present | ⟨sameKey, sameValue⟩)
    · exact valuePresent present
    · exact same ⟨sameKey.symm, sameValue⟩
  rw [appendNew_of_not_mem addedNew, appendNew_of_not_mem valueNew,
    appendNew_of_not_mem valuePresent, appendNew_of_not_mem addedPresent, append_comm_iff]
  constructor
  · exact Or.imp_right Or.inl
  · rintro (different | sameValue | present | present)
    · exact Or.inl different
    · exact Or.inr sameValue
    · exact absurd present valuePresent
    · exact Or.inl fun sameKey => addedPresent (sameKey ▸ present)

end Table

namespace Grammar

variable {grammar : Grammar}

/-- Two binary rules can be registered in either order exactly when the listings of their names and
those of their right sides come out the same. -/
theorem addBinary_comm_iff {name other left right otherLeft otherRight : Symbol} :
    (grammar.addBinary name left right).addBinary other otherLeft otherRight =
        (grammar.addBinary other otherLeft otherRight).addBinary name left right ↔
      (name ≠ other ∨ Expansion.mk left right = ⟨otherLeft, otherRight⟩) ∧
        (Expansion.mk left right ≠ ⟨otherLeft, otherRight⟩ ∨ name = other ∨
          name ∈ grammar.namesForPair left right ∨ other ∈ grammar.namesForPair left right) := by
  simp only [addBinary, mk.injEq, true_and, and_true, Table.append_comm_iff,
    Table.appendNew_comm_iff, namesForPair]

/-- Two terminal rules can be registered in either order exactly when the listings of their names
and those of their tokens come out the same. -/
theorem addTerminal_comm_iff {name other : Symbol} {token word : Token} :
    (grammar.addTerminal name token).addTerminal other word =
        (grammar.addTerminal other word).addTerminal name token ↔
      (name ≠ other ∨ token = word) ∧
        (token ≠ word ∨ name = other ∨
          name ∈ grammar.namesForToken token ∨ other ∈ grammar.namesForToken token) := by
  simp only [addTerminal, mk.injEq, true_and, Table.append_comm_iff, Table.appendNew_comm_iff,
    namesForToken]

/-- Two rules can be registered in either order exactly when they are the same, or of different
kinds, or have different names and either different right sides or one that the grammar knows for
one of the names already. -/
theorem register_comm_iff (grammar : Grammar) (first second : Registration) :
    (grammar.register first).register second = (grammar.register second).register first ↔
      first = second ∨ first.isBinary ≠ second.isBinary ∨
        first.name ≠ second.name ∧
          (first.rightSide ≠ second.rightSide ∨
            first.name ∈ grammar.namesFor first.rightSide ∨
            second.name ∈ grammar.namesFor first.rightSide) := by
  cases first with
  | binary name left right =>
      cases second with
      | binary other otherLeft otherRight =>
          simp only [register, addBinary_comm_iff, Registration.isBinary, Registration.name,
            Registration.rightSide, namesFor, Registration.binary.injEq, Alternative.pair.injEq,
            Expansion.mk.injEq, ne_eq]
          tauto
      | terminal other word => exact iff_of_true rfl (Or.inr (Or.inl Bool.noConfusion))
  | terminal name token =>
      cases second with
      | binary other left right => exact iff_of_true rfl (Or.inr (Or.inl Bool.noConfusion))
      | terminal other word =>
          simp only [register, addTerminal_comm_iff, Registration.isBinary, Registration.name,
            Registration.rightSide, namesFor, Registration.terminal.injEq,
            Alternative.token.injEq, ne_eq]
          tauto

end Grammar

end ChartParser
