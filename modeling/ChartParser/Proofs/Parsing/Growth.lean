import ChartParser.Proofs.Grammar.Growth
import ChartParser.Proofs.Parsing.Limit
import Mathlib.Algebra.Order.BigOperators.Group.List

/-!
# Parsing with a grown grammar

New rules put new derivations between the old ones. The old ones stay, in their
order, and make up no less of what a parse has to make room for.
-/

namespace ChartParser.Grammar

variable {smaller larger : Grammar} {tokens : List Token} {span : Span}

/-- The derivations of a token stay. -/
theorem GrowsInto.tokenDerivations_sublist (grows : smaller.GrowsInto larger) (token : Token) :
    (smaller.tokenDerivations token).Sublist (larger.tokenDerivations token) :=
  (grows.namesForToken token).sublist.map _

/-- Combinations stay where their parts stay. -/
theorem GrowsInto.combine_sublist (grows : smaller.GrowsInto larger)
    {lefts moreLefts rights moreRights : List Tree} (leftsStay : lefts.Sublist moreLefts)
    (rightsStay : rights.Sublist moreRights) :
    (smaller.combine lefts rights).Sublist (larger.combine moreLefts moreRights) := by
  refine List.Sublist.trans (List.Sublist.flatMap_right lefts fun left _ => ?_)
    (leftsStay.flatMap _)
  refine List.Sublist.trans (List.Sublist.flatMap_right rights fun right _ => ?_)
    (rightsStay.flatMap _)
  exact (grows.namesForPair left.symbol right.symbol).sublist.map _

/-- The derivations of a span stay, in their order. -/
theorem GrowsInto.derivations_sublist (grows : smaller.GrowsInto larger) (tokens : List Token)
    (span : Span) :
    (smaller.derivations tokens span).Sublist (larger.derivations tokens span) := by
  induction span using derivations.induct with
  | case1 span one =>
      rw [derivations, derivations, if_pos one, if_pos one]
      cases tokens[span.start]? with
      | none => exact List.Sublist.refl []
      | some token => exact grows.tokenDerivations_sublist token
  | case2 span longer leftHypothesis rightHypothesis =>
      rw [derivations_of_longer longer, derivations_of_longer longer]
      apply List.Sublist.flatMap_right
      intro middle inside
      exact grows.combine_sublist (leftHypothesis middle inside) (rightHypothesis middle inside)

/-- The derivations from a start symbol stay, in their order. -/
theorem GrowsInto.startDerivations_sublist (grows : smaller.GrowsInto larger)
    (sameStart : larger.start = smaller.start) (tokens : List Token) :
    (smaller.startDerivations tokens).Sublist (larger.startDerivations tokens) := by
  rw [startDerivations, startDerivations, sameStart]
  exact (grows.derivations_sublist tokens _).filter _

/-- A token with a name keeps it. -/
theorem GrowsInto.namesForToken_ne_nil (grows : smaller.GrowsInto larger) {token : Token}
    (known : smaller.namesForToken token ≠ []) : larger.namesForToken token ≠ [] := by
  obtain ⟨name, member⟩ := List.exists_mem_of_ne_nil _ known
  exact List.ne_nil_of_mem ((grows.namesForToken token).subset member)

/-- Every span that is visited stays visited: no token is unknown that was known. -/
theorem GrowsInto.isPrefix_visited (grows : smaller.GrowsInto larger) (tokens : List Token) :
    smaller.visited tokens <+: larger.visited tokens := by
  by_cases known : ∀ token ∈ tokens, smaller.namesForToken token ≠ []
  · have stillKnown : ∀ token ∈ tokens, larger.namesForToken token ≠ [] := fun token member =>
      grows.namesForToken_ne_nil (known token member)
    simp only [visited, if_pos known, if_pos stillKnown, List.prefix_refl]
  · rw [visited, visited, if_neg known]
    split
    · exact Span.singles_isPrefix_all List.findIdx_le_length
    · apply Span.isPrefix_singles
      apply List.findIdx_le_findIdx
      intro token _ unknown
      rw [decide_eq_true_eq] at unknown ⊢
      exact List.prefix_nil.mp (unknown ▸ grows.namesForToken token)

/-- A parse needs no fewer entries. -/
theorem GrowsInto.demand_le (grows : smaller.GrowsInto larger) (tokens : List Token) :
    smaller.demand tokens ≤ larger.demand tokens := by
  obtain ⟨more, visits⟩ := grows.isPrefix_visited tokens
  calc
    smaller.entryCount tokens (smaller.visited tokens)
      ≤ larger.entryCount tokens (smaller.visited tokens) :=
        List.sum_le_sum fun span _ => (grows.derivations_sublist tokens span).length_le
    _ ≤ larger.entryCount tokens (larger.visited tokens) := by
        rw [← visits, entryCount_append]
        exact Nat.le_add_right _ _

/-- With more rules and the same start symbol a sentence keeps its parses, in their order, and a
parse that exceeds its limit exceeds it still. -/
theorem parse_grows (grammar : Grammar) (registrations : List Registration)
    (tokens : List Token) :
    (∃ trees more, grammar.parse .unlimited tokens = .ok trees ∧
        (grammar.registerAll registrations).parse .unlimited tokens = .ok more ∧
        trees.Sublist more) ∧
      ∀ limit, grammar.parse (.entries limit) tokens = .error (.budgetExceeded limit) →
        (grammar.registerAll registrations).parse (.entries limit) tokens =
          .error (.budgetExceeded limit) := by
  have grows := growsInto_registerAll grammar registrations
  refine ⟨⟨_, _, parse_unlimited _ _, parse_unlimited _ _,
    grows.startDerivations_sublist (start_registerAll grammar registrations) tokens⟩, ?_⟩
  intro limit exceeded
  rw [parse_eq, answer_eq_error_iff] at exceeded ⊢
  exact Nat.lt_of_lt_of_le exceeded (grows.demand_le tokens)

/-- Rules that give the pair of two bracketings another name, that name a place beside a bracketing,
and a bracketing another token. -/
def furtherRules : List Registration :=
  [.binary "X" "S" "S", .binary "S" "S" "X", .terminal "S" "b"]

/-- Further rules put a third derivation of three tokens between the two bracketings. A limit that
was exceeded before an unknown token is exceeded still when the token is known. -/
theorem bracketing_grows :
    (∃ trees more, bracketing.parse .unlimited ["a", "a", "a"] = .ok trees ∧
        (bracketing.registerAll furtherRules).parse .unlimited ["a", "a", "a"] = .ok more ∧
        trees.Sublist more ∧ trees.length = 2 ∧ more.length = 3) ∧
      bracketing.parse (.entries 1) ["a", "a", "b"] = .error (.budgetExceeded 1) ∧
      (bracketing.registerAll furtherRules).parse (.entries 1) ["a", "a", "b"] =
        .error (.budgetExceeded 1) := by
  have exceeded : bracketing.parse (.entries 1) ["a", "a", "b"] = .error (.budgetExceeded 1) := by
    decide +kernel
  obtain ⟨trees, more, parsed, moreParsed, sublist⟩ :=
    (parse_grows bracketing furtherRules ["a", "a", "a"]).1
  refine ⟨⟨trees, more, parsed, moreParsed, sublist, ?_, ?_⟩, exceeded,
    (parse_grows bracketing furtherRules ["a", "a", "b"]).2 1 exceeded⟩
  · have counted : (bracketing.parses ["a", "a", "a"]).length = 2 := by
      decide +kernel
    rwa [parses, parsed] at counted
  · have counted :
        ((bracketing.registerAll furtherRules).parses ["a", "a", "a"]).length = 3 := by
      decide +kernel
    rwa [parses, moreParsed] at counted

end ChartParser.Grammar
