import ChartParser.Proofs.Parsing.Exactness
import Mathlib.Data.Set.Card

/-!
# The limit of a parse

`requiredEntries` counts trees, without a chart and in no order: the licensed
trees over every span of the sentence or, where a token is not known, those over
the tokens before the first such token. A parse exceeds its limit exactly when
the limit is less than this count, and otherwise the limit leaves no trace.
-/

namespace ChartParser.Grammar

open Finset

variable {grammar : Grammar} {tokens : List Token} {span : Span}

/-- Some name expands to the token. -/
def Knows (grammar : Grammar) (token : Token) : Prop :=
  ∃ name, token ∈ grammar.tokensOf name

/-- The licensed trees over some tokens, from whatever symbol. -/
def treesOver (grammar : Grammar) (tokens : List Token) : Set Tree :=
  {tree | tree.leaves = tokens ∧ tree.Licensed grammar}

/-- The number of licensed trees over the tokens of a span. -/
noncomputable def treeCount (grammar : Grammar) (tokens : List Token) (span : Span) : Nat :=
  (grammar.treesOver (span.slice tokens)).ncard

open Classical in
/-- The number of tokens before the first one that the grammar does not know. -/
noncomputable def knownPrefix (grammar : Grammar) (tokens : List Token) : Nat :=
  tokens.findIdx fun token => decide (¬ grammar.Knows token)

open Classical in
/-- The number of trees that a parse has to make room for. -/
noncomputable def requiredEntries (grammar : Grammar) (tokens : List Token) : Nat :=
  if ∀ token ∈ tokens, grammar.Knows token then
    ∑ start ∈ range tokens.length, ∑ stop ∈ Ioc start tokens.length,
      grammar.treeCount tokens ⟨start, stop⟩
  else
    ∑ position ∈ range (grammar.knownPrefix tokens), grammar.treeCount tokens (.single position)

/-- The lookups find a name for every token that the grammar knows, and for no other. -/
theorem Consistent.knows_iff (consistent : grammar.Consistent) (token : Token) :
    grammar.Knows token ↔ grammar.namesForToken token ≠ [] := by
  constructor
  · rintro ⟨name, registered⟩
    exact List.ne_nil_of_mem ((consistent.mem_namesForToken token name).mpr registered)
  · intro found
    obtain ⟨name, member⟩ := List.exists_mem_of_ne_nil _ found
    exact ⟨name, (consistent.mem_namesForToken token name).mp member⟩

/-- The enumeration lists the licensed trees over the tokens of a span. -/
theorem Consistent.treesOver_eq (consistent : grammar.Consistent)
    (within : span.Within tokens.length) :
    grammar.treesOver (span.slice tokens) = (grammar.derivations tokens span).toFinset := by
  ext tree
  rw [mem_coe, List.mem_toFinset, consistent.mem_derivations within]
  rfl

/-- Over some tokens there are only finitely many licensed trees. -/
theorem Consistent.finite_treesOver (consistent : grammar.Consistent) (tokens : List Token) :
    (grammar.treesOver tokens).Finite := by
  by_cases nonempty : tokens = []
  · apply Set.Finite.subset Set.finite_empty
    rintro tree ⟨leaves, _⟩
    exact tree.leaves_ne_nil (leaves.trans nonempty)
  · have listed := consistent.treesOver_eq (Span.within_whole nonempty)
    rw [Span.slice_whole] at listed
    rw [listed]
    exact finite_toSet _

/-- A cell has an entry for every licensed tree over the tokens of its span. -/
theorem Consistent.treeCount_eq (consistent : grammar.Consistent)
    (within : span.Within tokens.length) :
    grammar.treeCount tokens span = (grammar.derivations tokens span).length := by
  rw [treeCount, consistent.treesOver_eq within, Set.ncard_coe_finset,
    List.toFinset_card_of_nodup (consistent.nodup_derivations within)]

/-- The known tokens before the first unknown one are those that the lookups find names for. -/
theorem Consistent.knownPrefix_eq (consistent : grammar.Consistent) (tokens : List Token) :
    grammar.knownPrefix tokens =
      tokens.findIdx fun token => grammar.namesForToken token = [] := by
  have same : ∀ token, ¬ grammar.Knows token ↔ grammar.namesForToken token = [] := by
    intro token
    rw [consistent.knows_iff, not_not]
  simp only [knownPrefix, same]

/-- The entries that a parse needs are the trees that it has to make room for. -/
theorem Consistent.demand_eq (consistent : grammar.Consistent) (tokens : List Token) :
    grammar.demand tokens = grammar.requiredEntries tokens := by
  rw [demand, entryCount, visited, requiredEntries]
  simp only [consistent.knows_iff]
  split
  · rw [Span.sum_all]
    refine sum_congr rfl fun start _ => sum_congr rfl fun stop stopMember => ?_
    exact (consistent.treeCount_eq (mem_Ioc.mp stopMember)).symm
  · rw [← consistent.knownPrefix_eq, Span.sum_singles]
    refine sum_congr rfl fun position member => ?_
    have within : (Span.single position).Within tokens.length :=
      ⟨Nat.lt_succ_self position,
        Nat.lt_of_lt_of_le (mem_range.mp member) List.findIdx_le_length⟩
    exact (consistent.treeCount_eq within).symm

/-- Another start symbol needs the same entries. -/
@[simp] theorem requiredEntries_withStart (grammar : Grammar) (start : Symbol)
    (tokens : List Token) :
    (grammar.withStart start).requiredEntries tokens = grammar.requiredEntries tokens := by
  have sameTrees : ∀ span, (grammar.withStart start).treeCount tokens span =
      grammar.treeCount tokens span := by
    intro span
    simp only [treeCount, treesOver, Tree.licensed_withStart]
  simp only [requiredEntries, sameTrees]
  rfl

/-- A budget exceeds its limit when it has to make room for more entries. -/
theorem answer_eq_error_iff (limit count : Nat) (trees : List Tree) :
    (Budget.entries limit).answer count trees = .error (.budgetExceeded limit) ↔
      limit < count := by
  rw [Budget.answer]
  split <;> simp_all

/-- A parse exceeds its limit exactly when the limit is less than the number of trees that it has
to make room for, whatever the start symbol. Otherwise it has the answer that it has without a
limit. A sentence without tokens exceeds no limit. -/
theorem parse_limit (reachable : grammar.Reachable) (tokens : List Token) (limit : Nat) :
    (grammar.parse (.entries limit) tokens = .error (.budgetExceeded limit) ↔
        limit < grammar.requiredEntries tokens) ∧
      (¬ limit < grammar.requiredEntries tokens →
        ∃ trees, grammar.parse .unlimited tokens = .ok trees ∧
          grammar.parse (.entries limit) tokens = .ok trees) ∧
      (∀ start,
        (grammar.withStart start).parse (.entries limit) tokens = .error (.budgetExceeded limit) ↔
          grammar.parse (.entries limit) tokens = .error (.budgetExceeded limit)) ∧
      grammar.parse (.entries limit) [] = .ok [] := by
  have threshold : ∀ {other : Grammar}, other.Reachable →
      (other.parse (.entries limit) tokens = .error (.budgetExceeded limit) ↔
        limit < other.requiredEntries tokens) := by
    intro other otherReachable
    rw [parse_eq, answer_eq_error_iff, otherReachable.consistent.demand_eq]
  refine ⟨threshold reachable, ?_, ?_, rfl⟩
  · intro enough
    refine ⟨grammar.startDerivations tokens, grammar.parse_unlimited tokens, ?_⟩
    rw [parse_eq, reachable.consistent.demand_eq]
    exact if_neg enough
  · intro start
    rw [threshold (reachable.withStart start), threshold reachable, requiredEntries_withStart]

/-- Seven entries are needed for three tokens: one for each of them, one for each pair of
neighbours, and one for each of the two bracketings. A limit of six is exceeded, and a limit of
seven makes no difference. -/
theorem requiredEntries_three_tokens :
    bracketing.Reachable ∧ bracketing.requiredEntries ["a", "a", "a"] = 7 ∧
      bracketing.parse (.entries 6) ["a", "a", "a"] = .error (.budgetExceeded 6) ∧
      ∃ trees, bracketing.parse .unlimited ["a", "a", "a"] = .ok trees ∧
        bracketing.parse (.entries 7) ["a", "a", "a"] = .ok trees := by
  have six := parse_limit reachable_bracketing ["a", "a", "a"] 6
  have seven := parse_limit reachable_bracketing ["a", "a", "a"] 7
  have exceeded : bracketing.parse (.entries 6) ["a", "a", "a"] = .error (.budgetExceeded 6) := by
    decide +kernel
  have sufficient :
      ¬ bracketing.parse (.entries 7) ["a", "a", "a"] = .error (.budgetExceeded 7) := by
    decide +kernel
  have more := six.1.mp exceeded
  have noMore := mt seven.1.mpr sufficient
  exact ⟨reachable_bracketing, by omega, exceeded, seven.2.1 noMore⟩

end ChartParser.Grammar
