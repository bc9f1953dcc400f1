import ChartParser.Derivation.Enumeration
import ChartParser.Proofs.Grammar.Lookup
import ChartParser.Derivation.Licensed
import Mathlib.Data.List.Nodup

/-!
# What the enumeration of derivations lists

The derivations of a span are the trees over its tokens whose rules the lookups
of the grammar find, each listed once. `Consistent.found_iff_licensed` replaces
the lookups by the rules themselves.
-/

namespace ChartParser

/-- The lookups of a grammar find the rule of every leaf and every node. -/
def Tree.Found (grammar : Grammar) : Tree → Prop
  | leaf symbol token => symbol ∈ grammar.namesForToken token
  | node symbol left right =>
      symbol ∈ grammar.namesForPair left.symbol right.symbol ∧
        left.Found grammar ∧ right.Found grammar

namespace Grammar

variable {grammar : Grammar} {tokens : List Token} {span : Span}

/-- Where lookups and tables hold the same rules, trees are found exactly when they are licensed. -/
theorem Consistent.found_iff_licensed (consistent : grammar.Consistent) (tree : Tree) :
    tree.Found grammar ↔ tree.Licensed grammar := by
  induction tree with
  | leaf symbol token => exact consistent.mem_namesForToken token symbol
  | node symbol left right leftHypothesis rightHypothesis =>
      simp only [Tree.Found, Tree.Licensed, consistent.mem_namesForPair, leftHypothesis,
        rightHypothesis]

/-- The derivations of a token are the leaves over it that the lookups find. -/
theorem mem_tokenDerivations {token : Token} {tree : Tree} :
    tree ∈ grammar.tokenDerivations token ↔ tree.leaves = [token] ∧ tree.Found grammar := by
  simp only [tokenDerivations, List.mem_map]
  constructor
  · rintro ⟨name, found, rfl⟩
    exact ⟨rfl, found⟩
  · rintro ⟨leaves, found⟩
    cases tree with
    | leaf symbol word =>
        obtain rfl : word = token := by simpa [Tree.leaves] using leaves
        exact ⟨symbol, found, rfl⟩
    | node symbol left right =>
        -- A node derives a token on either side, and there is only one.
        have leftNonempty := left.leaves_ne_nil
        have rightNonempty := right.leaves_ne_nil
        simp only [Tree.leaves, List.append_eq_singleton_iff] at leaves
        simp_all

/-- The derivations of a span are exactly the trees over its tokens that the lookups find. -/
theorem mem_derivations_iff_found (within : span.Within tokens.length) (tree : Tree) :
    tree ∈ grammar.derivations tokens span ↔
      tree.leaves = span.slice tokens ∧ tree.Found grammar := by
  induction span using derivations.induct generalizing tree with
  | case1 span one =>
      have inBounds : span.start < tokens.length := Nat.lt_of_lt_of_le within.1 within.2
      rw [Span.eq_single_of_width one, derivations_single inBounds, Span.slice_single inBounds,
        mem_tokenDerivations]
  | case2 span longer leftHypothesis rightHypothesis =>
      have sides : ∀ middle, (span.start < middle ∧ middle < span.stop) → ∀ left right : Tree,
          (left ∈ grammar.derivations tokens ⟨span.start, middle⟩ ↔
            left.leaves = Span.slice ⟨span.start, middle⟩ tokens ∧ left.Found grammar) ∧
          (right ∈ grammar.derivations tokens ⟨middle, span.stop⟩ ↔
            right.leaves = Span.slice ⟨middle, span.stop⟩ tokens ∧ right.Found grammar) := by
        intro middle inside left right
        have splits := Span.mem_splits.mpr inside
        have parts := within.parts inside
        exact ⟨leftHypothesis middle splits parts.1 left,
          rightHypothesis middle splits parts.2 right⟩
      simp only [derivations_of_longer longer, List.mem_flatMap, mem_combine, Span.mem_splits]
      constructor
      · rintro ⟨middle, inside, left, leftMember, right, rightMember, name, found, rfl⟩
        obtain ⟨leftSide, rightSide⟩ := sides middle inside left right
        obtain ⟨leftLeaves, leftFound⟩ := leftSide.mp leftMember
        obtain ⟨rightLeaves, rightFound⟩ := rightSide.mp rightMember
        refine ⟨?_, found, leftFound, rightFound⟩
        rw [Tree.leaves, leftLeaves, rightLeaves, Span.slice_append inside]
      · rintro ⟨leaves, found⟩
        cases tree with
        | leaf symbol token =>
            -- A leaf derives one token, and the span has more.
            have lengths := congrArg List.length leaves
            rw [Span.length_slice within] at lengths
            exact absurd lengths.symm longer
        | node symbol left right =>
            obtain ⟨found, leftFound, rightFound⟩ := found
            obtain ⟨middle, inside, leftLeaves, rightLeaves⟩ :=
              Span.exists_cut within leaves left.leaves_ne_nil right.leaves_ne_nil
            obtain ⟨leftSide, rightSide⟩ := sides middle inside left right
            exact ⟨middle, inside, left, leftSide.mpr ⟨leftLeaves, leftFound⟩, right,
              rightSide.mpr ⟨rightLeaves, rightFound⟩, symbol, found, rfl⟩

/-- The derivations of a span are exactly the licensed trees over its tokens. -/
theorem Consistent.mem_derivations (consistent : grammar.Consistent)
    (within : span.Within tokens.length) (tree : Tree) :
    tree ∈ grammar.derivations tokens span ↔
      tree.leaves = span.slice tokens ∧ tree.Licensed grammar := by
  rw [mem_derivations_iff_found within, consistent.found_iff_licensed]

/-- The lookups find a name for every token of a tree that they find. -/
theorem namesForToken_ne_nil {tree : Tree} (found : tree.Found grammar) {token : Token}
    (member : token ∈ tree.leaves) : grammar.namesForToken token ≠ [] := by
  induction tree with
  | leaf symbol word =>
      obtain rfl := List.mem_singleton.mp member
      exact List.ne_nil_of_mem found
  | node symbol left right leftHypothesis rightHypothesis =>
      rcases List.mem_append.mp member with inLeft | inRight
      · exact leftHypothesis found.2.1 inLeft
      · exact rightHypothesis found.2.2 inRight

/-- A sentence with a token that no name expands to has no derivation. -/
theorem derivations_of_unknown {token : Token} (member : token ∈ tokens)
    (unknown : grammar.namesForToken token = []) :
    grammar.derivations tokens (.whole tokens.length) = [] := by
  have within := Span.within_whole (List.ne_nil_of_mem member)
  apply List.eq_nil_iff_forall_not_mem.mpr
  intro tree listed
  obtain ⟨leaves, found⟩ := (mem_derivations_iff_found within tree).mp listed
  rw [Span.slice_whole] at leaves
  exact namesForToken_ne_nil found (by rwa [leaves]) unknown

/-- The derivations of a span depend on nothing but the tokens that it covers. -/
theorem derivations_congr {others : List Token} {other : Span}
    (within : span.Within tokens.length) (otherWithin : other.Within others.length)
    (same : span.slice tokens = other.slice others) :
    grammar.derivations tokens span = grammar.derivations others other := by
  induction span using derivations.induct generalizing other with
  | case1 span one =>
      have widths := congrArg List.length same
      rw [Span.length_slice within, Span.length_slice otherWithin] at widths
      have otherOne : other.width = 1 := widths ▸ one
      have inBounds : span.start < tokens.length := Nat.lt_of_lt_of_le within.1 within.2
      have otherInBounds : other.start < others.length :=
        Nat.lt_of_lt_of_le otherWithin.1 otherWithin.2
      rw [Span.eq_single_of_width one, Span.eq_single_of_width otherOne,
        Span.slice_single inBounds, Span.slice_single otherInBounds] at same
      rw [Span.eq_single_of_width one, Span.eq_single_of_width otherOne,
        derivations_single inBounds, derivations_single otherInBounds, List.head_eq_of_cons_eq same]
  | case2 span longer leftHypothesis rightHypothesis =>
      have widths := congrArg List.length same
      rw [Span.length_slice within, Span.length_slice otherWithin] at widths
      have otherLonger : other.width ≠ 1 := widths ▸ longer
      -- Split positions correspond by their distance from the start of the span.
      rw [derivations_of_longer longer, derivations_of_longer otherLonger, Span.splits,
        Span.splits, ← widths, List.range'_eq_map_range, List.range'_eq_map_range,
        List.flatMap_map, List.flatMap_map]
      apply List.flatMap_congr
      intro distance member
      have near : distance < span.width - 1 := List.mem_range.mp member
      have nonempty := within.1
      have otherNonempty := otherWithin.1
      simp only [Span.width] at near widths
      have inside : span.start < span.start + 1 + distance ∧
          span.start + 1 + distance < span.stop := by omega
      have otherInside : other.start < other.start + 1 + distance ∧
          other.start + 1 + distance < other.stop := by omega
      have splits := Span.mem_splits.mpr inside
      have parts := within.parts inside
      have otherParts := otherWithin.parts otherInside
      congr 1
      · apply leftHypothesis _ splits parts.1 otherParts.1
        rw [Span.slice_left inside, Span.slice_left otherInside, same]
        congr 1
        omega
      · apply rightHypothesis _ splits parts.2 otherParts.2
        rw [Span.slice_right inside, Span.slice_right otherInside, same]
        congr 1
        omega

/-- A list that is made of parts repeats nothing if no part does and no two parts share anything. -/
theorem nodup_flatMap_of_unshared {Item Part : Type} {items : List Item}
    {parts : Item → List Part} (distinct : items.Nodup)
    (each : ∀ item ∈ items, (parts item).Nodup)
    (unshared : ∀ first ∈ items, ∀ second ∈ items, ∀ part ∈ parts first,
      part ∈ parts second → first = second) : (items.flatMap parts).Nodup := by
  refine List.nodup_flatMap.mpr ⟨each, distinct.imp_of_mem ?_⟩
  intro first second firstMember secondMember different part inFirst inSecond
  exact different (unshared first firstMember second secondMember part inFirst inSecond)

/-- No combination of two derivations is listed twice. -/
theorem Consistent.nodup_combine (consistent : grammar.Consistent) {lefts rights : List Tree}
    (leftsDistinct : lefts.Nodup) (rightsDistinct : rights.Nodup) :
    (grammar.combine lefts rights).Nodup := by
  refine nodup_flatMap_of_unshared leftsDistinct ?_ ?_
  · intro left _
    refine nodup_flatMap_of_unshared rightsDistinct ?_ ?_
    · intro right _
      apply (consistent.nodup_namesForPair left.symbol right.symbol).map
      intro first second same
      injection same
    · intro first _ second _ tree inFirst inSecond
      obtain ⟨_, _, rfl⟩ := List.mem_map.mp inFirst
      obtain ⟨_, _, same⟩ := List.mem_map.mp inSecond
      injection same with _ _ rights
      exact rights.symm
  · intro first _ second _ tree inFirst inSecond
    simp only [List.mem_flatMap, List.mem_map] at inFirst inSecond
    obtain ⟨_, _, _, _, rfl⟩ := inFirst
    obtain ⟨_, _, _, _, same⟩ := inSecond
    injection same with _ lefts _
    exact lefts.symm

/-- No derivation of a span is listed twice: the tokens left of its root's split tell where the
split is. -/
theorem Consistent.nodup_derivations (consistent : grammar.Consistent)
    (within : span.Within tokens.length) : (grammar.derivations tokens span).Nodup := by
  induction span using derivations.induct with
  | case1 span one =>
      have inBounds : span.start < tokens.length := Nat.lt_of_lt_of_le within.1 within.2
      rw [Span.eq_single_of_width one, derivations_single inBounds]
      apply (consistent.nodup_namesForToken _).map
      intro first second same
      injection same
  | case2 span longer leftHypothesis rightHypothesis =>
      rw [derivations_of_longer longer]
      refine nodup_flatMap_of_unshared List.nodup_range' ?_ ?_
      · intro middle inside
        have parts := within.parts (Span.mem_splits.mp inside)
        exact consistent.nodup_combine (leftHypothesis middle inside parts.1)
          (rightHypothesis middle inside parts.2)
      · intro first firstInside second secondInside tree inFirst inSecond
        obtain ⟨left, leftMember, right, _, name, _, rfl⟩ := mem_combine.mp inFirst
        obtain ⟨_, otherMember, _, _, _, _, same⟩ := mem_combine.mp inSecond
        injection same with _ lefts _
        subst lefts
        have firstParts := within.parts (Span.mem_splits.mp firstInside)
        have secondParts := within.parts (Span.mem_splits.mp secondInside)
        have firstLeaves := ((mem_derivations_iff_found firstParts.1 _).mp leftMember).1
        have secondLeaves := ((mem_derivations_iff_found secondParts.1 _).mp otherMember).1
        have widths := congrArg List.length (firstLeaves.symm.trans secondLeaves)
        rw [Span.length_slice firstParts.1, Span.length_slice secondParts.1] at widths
        have firstPositive := firstParts.1.1
        have secondPositive := secondParts.1.1
        simp only [Span.width] at widths firstPositive secondPositive
        omega

end Grammar

end ChartParser
