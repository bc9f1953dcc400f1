import ChartParser.Proofs.Grammar.Registered
import ChartParser.Proofs.Parsing.Growth

/-!
# Parsing does not depend on how rules were registered

Grammars with the same rules license the same trees. So their parses of a
sentence are the same up to their order, and they have to make room for equally
many. Grammars with the same lookups cannot be told apart by parsing at all.
-/

namespace ChartParser.Grammar

variable {first second : Grammar} {tokens : List Token}

/-- The same rules license the same trees. -/
theorem licensed_congr
    (same : ∀ registration, first.Registered registration ↔ second.Registered registration)
    (tree : Tree) : tree.Licensed first ↔ tree.Licensed second := by
  induction tree with
  | leaf symbol token => exact same (.terminal symbol token)
  | node symbol left right leftHypothesis rightHypothesis =>
      exact and_congr (same (.binary symbol left.symbol right.symbol))
        (and_congr leftHypothesis rightHypothesis)

/-- The same rules need the same number of entries. -/
theorem requiredEntries_congr
    (same : ∀ registration, first.Registered registration ↔ second.Registered registration)
    (tokens : List Token) : first.requiredEntries tokens = second.requiredEntries tokens := by
  have sameCounts : ∀ span, first.treeCount tokens span = second.treeCount tokens span := by
    intro span
    simp only [treeCount, treesOver, licensed_congr same]
  have sameTokens : first.Knows = second.Knows := by
    ext token
    exact exists_congr fun name => same (.terminal name token)
  simp only [requiredEntries, knownPrefix, sameCounts]
  rw [sameTokens]

/-- The same rules and the same start symbol give the same parses, in some order. -/
theorem startDerivations_perm (firstConsistent : first.Consistent)
    (secondConsistent : second.Consistent)
    (same : ∀ registration, first.Registered registration ↔ second.Registered registration)
    (sameStart : first.start = second.start) (tokens : List Token) :
    (first.startDerivations tokens).Perm (second.startDerivations tokens) := by
  rw [← parses_eq, ← parses_eq]
  refine (List.perm_ext_iff_of_nodup (firstConsistent.nodup_parses tokens)
    (secondConsistent.nodup_parses tokens)).mpr ?_
  intro tree
  rw [firstConsistent.mem_parses, secondConsistent.mem_parses, Tree.Derives, Tree.Derives,
    licensed_congr same, sameStart]

/-- The same lookups give the same outcome of every parse. -/
theorem SameLookups.parse_eq (same : first.SameLookups second) (budget : Budget)
    (tokens : List Token) : first.parse budget tokens = second.parse budget tokens := by
  have forth := same.growsInto
  have back := same.symm.growsInto
  have trees := (forth.startDerivations_sublist same.start.symm tokens).antisymm
    (back.startDerivations_sublist same.start tokens)
  have count := Nat.le_antisymm (forth.demand_le tokens) (back.demand_le tokens)
  rw [Grammar.parse_eq, Grammar.parse_eq, trees, count]

/-- Equal counts and permuted trees give answers that differ in the order of the trees only. -/
theorem answer_perm (budget : Budget) (count : Nat) {trees others : List Tree}
    (permuted : trees.Perm others) :
    (∃ limit, budget = .entries limit ∧
        budget.answer count trees = .error (.budgetExceeded limit) ∧
        budget.answer count others = .error (.budgetExceeded limit)) ∨
      ∃ answer otherAnswer, budget.answer count trees = .ok answer ∧
        budget.answer count others = .ok otherAnswer ∧ answer.Perm otherAnswer := by
  by_cases covers : budget.Covers count
  · exact Or.inr ⟨trees, others, Budget.answer_of_covers covers _,
      Budget.answer_of_covers covers _, permuted⟩
  · obtain ⟨limit, rfl, exceeds⟩ := Budget.exists_limit_of_not_covers covers
    exact Or.inl ⟨limit, rfl, (answer_eq_error_iff limit count _).mpr exceeds,
      (answer_eq_error_iff limit count _).mpr exceeds⟩

/-- Two histories that register the same rules, in whatever order and however often, and end with
the same start symbol have the same outcome of every parse, up to the order of the parses. A rule
that is registered once more after it has been registered leaves every outcome as it is, the order
included. -/
theorem parse_independent_of_history :
    (∀ firstStart secondStart firstHistory secondHistory,
      (∀ registration, Change.register registration ∈ firstHistory ↔
        Change.register registration ∈ secondHistory) →
      ((empty firstStart).changeAll firstHistory).start =
        ((empty secondStart).changeAll secondHistory).start →
      ∀ budget tokens,
        (∃ limit, budget = .entries limit ∧
          ((empty firstStart).changeAll firstHistory).parse budget tokens =
            .error (.budgetExceeded limit) ∧
          ((empty secondStart).changeAll secondHistory).parse budget tokens =
            .error (.budgetExceeded limit)) ∨
        ∃ trees others,
          ((empty firstStart).changeAll firstHistory).parse budget tokens = .ok trees ∧
          ((empty secondStart).changeAll secondHistory).parse budget tokens = .ok others ∧
          trees.Perm others) ∧
      ∀ start before after registration, Change.register registration ∈ before →
        ∀ budget tokens,
          ((empty start).changeAll (before ++ .register registration :: after)).parse budget
              tokens =
            ((empty start).changeAll (before ++ after)).parse budget tokens := by
  constructor
  · intro firstStart secondStart firstHistory secondHistory sameRules sameStart budget tokens
    have same : ∀ registration,
        ((empty firstStart).changeAll firstHistory).Registered registration ↔
          ((empty secondStart).changeAll secondHistory).Registered registration := by
      intro registration
      simp only [registered_changeAll, not_registered_empty, false_or, sameRules]
    have firstConsistent := (consistent_empty firstStart).changeAll firstHistory
    have secondConsistent := (consistent_empty secondStart).changeAll secondHistory
    rw [parse_eq, parse_eq, firstConsistent.demand_eq, secondConsistent.demand_eq,
      requiredEntries_congr same]
    exact answer_perm budget _
      (startDerivations_perm firstConsistent secondConsistent same sameStart tokens)
  · intro start before after registration present budget tokens
    have consistent := (consistent_empty start).changeAll before
    have registered := (registered_changeAll (empty start) before).mpr (Or.inr present)
    have again := (consistent.sameLookups_register registered).changeAll after
    rw [changeAll_append, changeAll_append]
    exact again.parse_eq budget tokens

/-- A history of a grammar in which a token has two names. -/
def twoNames : List Change :=
  [.register (.terminal "S" "a"), .register (.terminal "X" "a"),
    .register (.binary "S" "S" "S"), .register (.binary "S" "X" "S")]

/-- The same rules in another order, one of them twice, and the start symbol in between. -/
def twoNamesReordered : List Change :=
  [.register (.binary "S" "X" "S"), .register (.terminal "X" "a"), .startWith "S",
    .register (.terminal "S" "a"), .register (.terminal "X" "a"), .register (.binary "S" "S" "S")]

/-- Reordering the rules of a grammar turns the two parses of a sentence around. A name that a token
has already can be registered again before another rule, and nothing changes. -/
theorem two_names_reordered :
    (∀ registration, Change.register registration ∈ twoNames ↔
        Change.register registration ∈ twoNamesReordered) ∧
      (∃ trees others, ((empty "S").changeAll twoNames).parse .unlimited ["a", "a"] = .ok trees ∧
        ((empty "T").changeAll twoNamesReordered).parse .unlimited ["a", "a"] = .ok others ∧
        trees.Perm others ∧ trees ≠ others) ∧
      Change.register (.terminal "X" "a") ∈ twoNames ∧
      ∀ budget tokens,
        ((empty "S").changeAll (twoNames ++
            [.register (.terminal "X" "a"), .register (.terminal "Y" "a")])).parse budget tokens =
          ((empty "S").changeAll (twoNames ++ [.register (.terminal "Y" "a")])).parse budget
            tokens := by
  have sameRules : ∀ registration, Change.register registration ∈ twoNames ↔
      Change.register registration ∈ twoNamesReordered := by
    intro registration
    simp only [twoNames, twoNamesReordered, List.mem_cons, Change.register.injEq, reduceCtorEq,
      List.not_mem_nil]
    tauto
  have present : Change.register (.terminal "X" "a") ∈ twoNames := by decide
  have different : ((empty "S").changeAll twoNames).parse .unlimited ["a", "a"] ≠
      ((empty "T").changeAll twoNamesReordered).parse .unlimited ["a", "a"] := by
    decide +kernel
  refine ⟨sameRules, ?_, present,
    parse_independent_of_history.2 "S" twoNames _ (.terminal "X" "a") present⟩
  rcases parse_independent_of_history.1 "S" "T" twoNames twoNamesReordered sameRules rfl .unlimited
    ["a", "a"] with ⟨_, limited, _⟩ | ⟨trees, others, parsed, otherParsed, permuted⟩
  · cases limited
  · refine ⟨trees, others, parsed, otherParsed, permuted, ?_⟩
    rintro rfl
    exact different (parsed.trans otherParsed.symm)

end ChartParser.Grammar
