import ChartParser.Derivation.Bracketing
import ChartParser.Grammar.Dense
import ChartParser.Proofs.Grammar.Registered
import ChartParser.Proofs.Parsing.Exactness
import Mathlib.Combinatorics.Enumerative.Catalan.Basic
import Mathlib.Data.Set.Function

/-!
# Parsing with a dense grammar

In a dense grammar every two derivations of neighbouring spans can be combined, and
every name can stand over them. So the derivations of a span are counted by its
bracketings, whose number is a Catalan number, and by the names that can stand at
every place of a bracketing.
-/

namespace ChartParser

open Finset

namespace Grammar

/-- Some names, none of them twice and the start symbol first, expand to one token and to every
ordered pair of the names. Nothing else is registered, but this in any order and however often. -/
structure Dense (grammar : Grammar) (names : List Symbol) (token : Token) : Prop where
  reachable : grammar.Reachable
  distinct : names.Nodup
  start : names.head? = some grammar.start
  registered : ∀ registration,
    grammar.Registered registration ↔ registration ∈ denseRules names token

/-- The grammar of all rules over some names is dense. -/
theorem dense_of_nodup {start : Symbol} {others : List Symbol} (distinct : (start :: others).Nodup)
    (token : Token) : (dense start (start :: others) token).Dense (start :: others) token where
  reachable := ⟨start, _, registerAll_eq_changeAll _ _⟩
  distinct := distinct
  start := by rw [dense, start_registerAll]; rfl
  registered := by
    intro registration
    rw [dense, registerAll_eq_changeAll, registered_changeAll]
    simp [not_registered_empty]

end Grammar

/-- Some names, so many times. -/
def repeated (names : List Symbol) (times : Nat) : List Symbol :=
  (List.replicate times names).flatten

/-- Names that are repeated for every item of a list are repeated in all. -/
theorem flatMap_repeated {Item : Type} (names : List Symbol) (items : List Item)
    (times : Item → Nat) :
    (items.flatMap fun item => repeated names (times item)) =
      repeated names (items.map times).sum := by
  induction items with
  | nil => rfl
  | cons item items inductionHypothesis =>
      rw [List.flatMap_cons, inductionHypothesis, List.map_cons, List.sum_cons, repeated, repeated,
        repeated, List.replicate_add, List.flatten_append]

/-- Names that are listed once for every item of a list are repeated. -/
theorem flatMap_names {Item : Type} (names : List Symbol) (items : List Item) :
    (items.flatMap fun _ => names) = repeated names items.length := by
  simp [repeated, List.flatMap, List.map_const']

/-- Each of some names stands at the root of equally many trees of a list, and no other symbol
does. -/
def EvenlyRooted (names : List Symbol) (times : Nat) (trees : List Tree) : Prop :=
  (trees.map Tree.symbol).Perm (repeated names times)

namespace EvenlyRooted

variable {names : List Symbol} {times : Nat} {trees : List Tree}

/-- There are as many trees as names for every time. -/
theorem length_eq (rooted : EvenlyRooted names times trees) :
    trees.length = times * names.length := by
  have lengths := List.Perm.length_eq rooted
  simpa [repeated] using lengths

/-- One of the names stands at every root. -/
theorem symbol_mem (rooted : EvenlyRooted names times trees) {tree : Tree} (member : tree ∈ trees) :
    tree.symbol ∈ names := by
  have root := rooted.mem_iff.mp (List.mem_map_of_mem member)
  obtain ⟨_, repetition, inside⟩ := List.mem_flatten.mp root
  rwa [List.eq_of_mem_replicate repetition] at inside

/-- A name stands at so many roots. -/
theorem length_filter (rooted : EvenlyRooted names times trees) (distinct : names.Nodup)
    {name : Symbol} (member : name ∈ names) :
    (trees.filter fun tree => tree.symbol = name).length = times := by
  have once : (repeated names times).count name = times := by
    simp [repeated, List.count_flatten, List.count_eq_one_of_mem distinct member]
  rw [← once, ← rooted.count_eq name, List.count, List.countP_map, List.countP_eq_length_filter]
  congr 1

/-- A list that is made of parts has the names at as many roots as all parts together. -/
theorem flatMap {Item : Type} {items : List Item} {parts : Item → List Tree} {times : Item → Nat}
    (rooted : ∀ item ∈ items, EvenlyRooted names (times item) (parts item)) :
    EvenlyRooted names (items.map times).sum (items.flatMap parts) := by
  rw [EvenlyRooted, List.map_flatMap, ← flatMap_repeated]
  exact List.Perm.flatMap_left items rooted

end EvenlyRooted

/-- How many trees over so many tokens have a given name at their root, where each of so many names
can stand everywhere: one for every bracketing and all names below the root. -/
def treesPerName (names width : Nat) : Nat :=
  catalan (width - 1) * names ^ (2 * (width - 1))

/-- With any name at the root there are so many times more. -/
theorem treesPerName_mul (names : Nat) {width : Nat} (positive : 0 < width) :
    treesPerName names width * names = catalan (width - 1) * names ^ (2 * width - 1) := by
  have exponent : 2 * (width - 1) + 1 = 2 * width - 1 := by omega
  rw [treesPerName, Nat.mul_assoc, ← pow_succ, exponent]

/-- Over more than one token, the trees with a given name are counted by the trees of both sides. -/
theorem treesPerName_add_two (names width : Nat) :
    treesPerName names (width + 2) =
      ∑ left ∈ range (width + 1),
        (treesPerName names (left + 1) * names) *
          (treesPerName names (width + 1 - left) * names) := by
  have recurrence : catalan (width + 1) =
      ∑ left ∈ range (width + 1), catalan left * catalan (width - left) := by
    rw [catalan_succ, sum_range]
  rw [treesPerName, Nat.add_sub_cancel_right (width + 1) 1, recurrence, sum_mul]
  refine sum_congr rfl fun left member => ?_
  obtain ⟨right, rfl⟩ := Nat.exists_eq_add_of_le (Nat.le_of_lt_succ (mem_range.mp member))
  have sides : left + right + 1 - left = right + 1 := by omega
  rw [Nat.add_sub_cancel_left, sides, treesPerName, treesPerName, Nat.add_sub_cancel,
    Nat.add_sub_cancel]
  ring

/-- Hence they are counted split by split. -/
theorem sum_splits (names : Nat) {span : Span} (longer : 1 < span.width) :
    (span.splits.map fun middle =>
      (treesPerName names (Span.width ⟨span.start, middle⟩) * names) *
        (treesPerName names (Span.width ⟨middle, span.stop⟩) * names)).sum =
      treesPerName names span.width := by
  obtain ⟨width, widths⟩ := Nat.exists_eq_add_of_lt longer
  rw [Nat.add_comm 1, Nat.add_assoc] at widths
  rw [widths, treesPerName_add_two, Span.splits, widths, List.range'_eq_map_range, List.map_map,
    ← List.sum_toFinset _ List.nodup_range, List.toFinset_range]
  refine sum_congr rfl fun left member => ?_
  have leftWidth : span.start + 1 + left - span.start = left + 1 := by omega
  have rightWidth : span.stop - (span.start + 1 + left) = width + 1 - left := by
    simp only [Span.width] at widths
    omega
  simp only [Function.comp_apply, Span.width, leftWidth, rightWidth]

namespace Grammar.Dense

variable {grammar : Grammar} {names : List Symbol} {name : Symbol} {token : Token} {span : Span}
  {count : Nat}

/-- Each of the names expands to the token, and to no other. -/
theorem mem_tokensOf (dense : grammar.Dense names token) {word : Token} :
    word ∈ grammar.tokensOf name ↔ name ∈ names ∧ word = token :=
  (dense.registered (.terminal name word)).trans terminal_mem_denseRules

/-- Each of the names expands to any two of them, and to no other pair. -/
theorem mem_expansions (dense : grammar.Dense names token) {left right : Symbol} :
    ⟨left, right⟩ ∈ grammar.expansions name ↔ name ∈ names ∧ left ∈ names ∧ right ∈ names :=
  (dense.registered (.binary name left right)).trans binary_mem_denseRules

/-- The names are found for the token. -/
theorem perm_namesForToken (dense : grammar.Dense names token) :
    (grammar.namesForToken token).Perm names := by
  have consistent := dense.reachable.consistent
  rw [List.perm_ext_iff_of_nodup (consistent.nodup_namesForToken token) dense.distinct]
  intro name
  rw [consistent.mem_namesForToken, dense.mem_tokensOf]
  exact and_iff_left rfl

/-- The names are found for every pair of them. -/
theorem perm_namesForPair (dense : grammar.Dense names token) {left right : Symbol}
    (leftMember : left ∈ names) (rightMember : right ∈ names) :
    (grammar.namesForPair left right).Perm names := by
  have consistent := dense.reachable.consistent
  rw [List.perm_ext_iff_of_nodup (consistent.nodup_namesForPair left right) dense.distinct]
  intro name
  rw [consistent.mem_namesForPair, dense.mem_expansions]
  exact and_iff_left ⟨leftMember, rightMember⟩

/-- Every name stands once over every two derivations of neighbouring spans. -/
theorem evenlyRooted_combine (dense : grammar.Dense names token) {lefts rights : List Tree}
    (leftNames : ∀ left ∈ lefts, left.symbol ∈ names)
    (rightNames : ∀ right ∈ rights, right.symbol ∈ names) :
    EvenlyRooted names (lefts.length * rights.length) (grammar.combine lefts rights) := by
  have roots : (grammar.combine lefts rights).map Tree.symbol =
      lefts.flatMap fun left => rights.flatMap fun right =>
        grammar.namesForPair left.symbol right.symbol := by
    simp [combine, List.map_flatMap, Function.comp_def, Tree.symbol]
  have everywhere : (lefts.flatMap fun _ => rights.flatMap fun _ => names) =
      repeated names (lefts.length * rights.length) := by
    simp only [flatMap_names names rights, flatMap_repeated, List.map_const', List.sum_replicate,
      smul_eq_mul]
  rw [EvenlyRooted, roots, ← everywhere]
  refine List.Perm.flatMap_left lefts fun left leftMember => ?_
  refine List.Perm.flatMap_left rights fun right rightMember => ?_
  exact dense.perm_namesForPair (leftNames left leftMember) (rightNames right rightMember)

/-- Every name stands at the root of equally many derivations of a span. -/
theorem evenlyRooted_derivations (dense : grammar.Dense names token) (within : span.Within count) :
    EvenlyRooted names (treesPerName names.length span.width)
      (grammar.derivations (List.replicate count token) span) := by
  induction span using derivations.induct with
  | case1 span one =>
      have inBounds : span.start < (List.replicate count token).length := by
        rw [List.length_replicate]
        exact Nat.lt_of_lt_of_le within.1 within.2
      have once : repeated names (treesPerName names.length span.width) = names := by
        simp [one, treesPerName, repeated]
      rw [EvenlyRooted, once, Span.eq_single_of_width one, derivations_single inBounds,
        List.getElem_replicate, tokenDerivations, List.map_map]
      refine (List.Perm.of_eq ?_).trans dense.perm_namesForToken
      exact List.map_id _
  | case2 span longer leftHypothesis rightHypothesis =>
      have nonempty : 0 < span.width := Nat.sub_pos_of_lt within.1
      -- The count of a span is put together split by split, as its derivations are.
      rw [derivations_of_longer longer, ← sum_splits names.length (by omega)]
      refine EvenlyRooted.flatMap fun middle inside => ?_
      have parts := within.parts (Span.mem_splits.mp inside)
      have leftRooted := leftHypothesis middle inside parts.1
      have rightRooted := rightHypothesis middle inside parts.2
      rw [← leftRooted.length_eq, ← rightRooted.length_eq]
      exact dense.evenlyRooted_combine (fun _ => leftRooted.symbol_mem)
        fun _ => rightRooted.symbol_mem

/-- A span has as many derivations as its bracketings have with all names at all places. -/
theorem length_derivations (dense : grammar.Dense names token) (within : span.Within count) :
    (grammar.derivations (List.replicate count token) span).length =
      catalan (span.width - 1) * names.length ^ (2 * span.width - 1) := by
  have nonempty : 0 < span.width := Nat.sub_pos_of_lt within.1
  rw [(dense.evenlyRooted_derivations within).length_eq, treesPerName_mul names.length nonempty]

/-- The start symbol is one of the names. -/
theorem start_mem (dense : grammar.Dense names token) : grammar.start ∈ names :=
  List.mem_of_mem_head? dense.start

/-- A sentence has so many derivations from the start symbol. -/
theorem length_startDerivations (dense : grammar.Dense names token) (positive : 0 < count) :
    (grammar.startDerivations (List.replicate count token)).length =
      treesPerName names.length count := by
  have within : (Span.whole count).Within count := ⟨positive, Nat.le_refl count⟩
  rw [startDerivations, List.length_replicate]
  exact (dense.evenlyRooted_derivations within).length_filter dense.distinct dense.start_mem

/-- Names expand to every token of the sentence. -/
theorem namesForToken_ne_nil (dense : grammar.Dense names token) :
    ∀ word ∈ List.replicate count token, grammar.namesForToken word ≠ [] := by
  intro word member
  obtain rfl := List.eq_of_mem_replicate member
  exact List.ne_nil_of_mem (dense.perm_namesForToken.mem_iff.mpr dense.start_mem)

/-- A parse needs the entries of every span, width by width. -/
theorem demand_eq (dense : grammar.Dense names token) :
    grammar.demand (List.replicate count token) =
      ∑ width ∈ Icc 1 count,
        (count - width + 1) * catalan (width - 1) * names.length ^ (2 * width - 1) := by
  have counts : ∀ span ∈ Span.all count,
      (grammar.derivations (List.replicate count token) span).length =
        catalan (span.width - 1) * names.length ^ (2 * span.width - 1) :=
    fun span member => dense.length_derivations (Span.mem_all.mp member)
  rw [demand, entryCount, visited, if_pos dense.namesForToken_ne_nil, List.length_replicate,
    List.map_congr_left counts,
    Span.sum_width_all count fun width => catalan (width - 1) * names.length ^ (2 * width - 1)]
  simp only [Nat.mul_assoc]

/-- Without a limit the chart is filled to its end. -/
theorem fill_eq_ok (dense : grammar.Dense names token) :
    Filling.fill grammar .unlimited (List.replicate count token) =
      .ok (Filling.reached grammar (List.replicate count token) .unlimited (Span.all count)) := by
  rw [Filling.fill_of_known dense.namesForToken_ne_nil, List.length_replicate]
  rcases Filling.visits_cases grammar .unlimited (List.replicate count token) (Span.all count) with
    ⟨_, ends⟩ | ⟨_, _, limited, _⟩
  · exact ends
  · cases limited

/-- With one name, the licensed trees are the bracketings. -/
theorem licensed_iff (dense : grammar.Dense [name] token) (tree : Tree) :
    tree.Licensed grammar ↔ ∃ bracketing : Bracketing, bracketing.tree name token = tree := by
  constructor
  · intro licensed
    induction tree with
    | leaf symbol word =>
        obtain ⟨here, rfl⟩ := dense.mem_tokensOf.mp licensed
        obtain rfl := List.mem_singleton.mp here
        exact ⟨.place, rfl⟩
    | node symbol left right leftHypothesis rightHypothesis =>
        obtain ⟨pair, leftLicensed, rightLicensed⟩ := licensed
        obtain rfl := List.mem_singleton.mp (dense.mem_expansions.mp pair).1
        obtain ⟨leftBracketing, rfl⟩ := leftHypothesis leftLicensed
        obtain ⟨rightBracketing, rfl⟩ := rightHypothesis rightLicensed
        exact ⟨.pair leftBracketing rightBracketing, rfl⟩
  · rintro ⟨bracketing, rfl⟩
    have member := List.mem_singleton_self name
    induction bracketing with
    | place => exact dense.mem_tokensOf.mpr ⟨member, rfl⟩
    | pair left right leftHypothesis rightHypothesis =>
        refine ⟨dense.mem_expansions.mpr ?_, leftHypothesis, rightHypothesis⟩
        rw [Bracketing.symbol_tree, Bracketing.symbol_tree]
        exact ⟨member, member, member⟩

/-- With one name, a sentence has each of its bracketings for a parse. -/
theorem bijOn_tree (dense : grammar.Dense [name] token) (count : Nat) :
    Set.BijOn (Bracketing.tree name token) {bracketing | bracketing.size = count}
      {tree | tree ∈ grammar.parses (List.replicate count token)} := by
  have members := dense.reachable.consistent.mem_parses (List.replicate count token)
  have start : grammar.start = name := List.mem_singleton.mp dense.start_mem
  refine ⟨?_, (Bracketing.tree_injective name token).injOn, ?_⟩
  · rintro bracketing rfl
    exact (members _).mpr ⟨by rw [start, Bracketing.symbol_tree], Bracketing.leaves_tree _ _ _,
      (dense.licensed_iff _).mpr ⟨bracketing, rfl⟩⟩
  · intro tree member
    obtain ⟨-, leaves, licensed⟩ := (members tree).mp member
    obtain ⟨bracketing, rfl⟩ := (dense.licensed_iff tree).mp licensed
    rw [Bracketing.leaves_tree] at leaves
    exact ⟨bracketing, (List.replicate_inj.mp leaves).1, rfl⟩

/-- Parsing with a dense grammar. A sentence is the token a number of times. Without a budget every
cell is filled, with an entry for every bracketing of its span and every choice of names, and the
parses, all of them distinct, are counted by the bracketings and all names but the one at the root.
With a single name each bracketing is a parse. A budget suffices exactly when it covers all
cells. -/
theorem parse_counts (dense : grammar.Dense names token) (positive : 0 < count) :
    (∃ filling, Filling.fill grammar .unlimited (List.replicate count token) = .ok filling ∧
        ∀ span : Span, span.Within count →
          (filling.chart.cell span).size =
            catalan (span.width - 1) * names.length ^ (2 * span.width - 1)) ∧
      (∃ trees, grammar.parse .unlimited (List.replicate count token) = .ok trees ∧
        trees.Nodup ∧
        trees.length = catalan (count - 1) * names.length ^ (2 * count - 2) ∧
        ∀ name, names = [name] →
          Set.BijOn (Bracketing.tree name token) {bracketing | bracketing.size = count}
            {tree | tree ∈ trees}) ∧
      ∀ limit,
        (∃ trees, grammar.parse (.entries limit) (List.replicate count token) = .ok trees) ↔
          ∑ width ∈ Icc 1 count,
            (count - width + 1) * catalan (width - 1) * names.length ^ (2 * width - 1) ≤ limit := by
  refine ⟨⟨_, dense.fill_eq_ok, fun span within => ?_⟩, ?_, ?_⟩
  · have all : ∀ span ∈ Span.all count, span.Within (List.replicate count token).length := by
      intro span member
      rw [List.length_replicate]
      exact Span.mem_all.mp member
    rw [← Array.length_toList, Filling.holds_reached all (Span.mem_all.mpr within),
      length_entries, dense.length_derivations within]
  · refine ⟨_, parse_unlimited grammar _, ?_⟩
    rw [← parses_eq]
    refine ⟨dense.reachable.consistent.nodup_parses _, ?_, ?_⟩
    · rw [parses_eq, dense.length_startDerivations positive, treesPerName, Nat.mul_sub_one]
    · rintro name rfl
      exact dense.bijOn_tree count
  · intro limit
    rw [parse_eq, dense.demand_eq, Budget.answer]
    split
    · next exceeds => simp [exceeds]
    · next covers => simp [Nat.not_lt.mp covers]

/-- With two names, three tokens need 86 entries and have 32 parses. With one name, they have their
bracketings for parses. -/
theorem parse_counts_three_tokens :
    ((dense "N0" ["N0", "N1"] "a").Dense ["N0", "N1"] "a" ∧
        (∃ filling, Filling.fill (dense "N0" ["N0", "N1"] "a") .unlimited ["a", "a", "a"] =
            .ok filling ∧
          (filling.chart.cell ⟨2, 3⟩).size = 2 ∧ (filling.chart.cell ⟨1, 3⟩).size = 8 ∧
          (filling.chart.cell ⟨0, 3⟩).size = 64) ∧
        (∃ trees, (dense "N0" ["N0", "N1"] "a").parse .unlimited ["a", "a", "a"] = .ok trees ∧
          trees.Nodup ∧ trees.length = 32) ∧
        (∃ trees, (dense "N0" ["N0", "N1"] "a").parse (.entries 86) ["a", "a", "a"] = .ok trees) ∧
        ¬ ∃ trees, (dense "N0" ["N0", "N1"] "a").parse (.entries 85) ["a", "a", "a"] =
          .ok trees) ∧
      (dense "S" ["S"] "a").Dense ["S"] "a" ∧
        ∃ trees, (dense "S" ["S"] "a").parse .unlimited ["a", "a", "a"] = .ok trees ∧
          trees.Nodup ∧
          Set.BijOn (Bracketing.tree "S" "a") {bracketing | bracketing.size = 3}
            {tree | tree ∈ trees} := by
  have two : (dense "N0" ["N0", "N1"] "a").Dense ["N0", "N1"] "a" :=
    dense_of_nodup (by decide) "a"
  have one : (dense "S" ["S"] "a").Dense ["S"] "a" := dense_of_nodup (by decide) "a"
  have required : ∑ width ∈ Icc 1 3,
      (3 - width + 1) * catalan (width - 1) * ["N0", "N1"].length ^ (2 * width - 1) = 86 := by
    simp [sum_Icc_succ_top, catalan_two]
  obtain ⟨⟨filling, filled, cells⟩, ⟨trees, parsed, distinct, length, -⟩, budget⟩ :=
    two.parse_counts (Nat.succ_pos 2)
  obtain ⟨-, ⟨bracketings, bracketed, once, -, bijective⟩, -⟩ := one.parse_counts (Nat.succ_pos 2)
  rw [required] at budget
  refine ⟨⟨two, ⟨filling, filled, ?_, ?_, ?_⟩, ⟨trees, parsed, distinct, ?_⟩,
    (budget 86).mpr (Nat.le_refl 86), mt (budget 85).mp (by decide)⟩, one, bracketings, bracketed,
    once, bijective "S" rfl⟩
  · simpa [Span.width] using cells ⟨2, 3⟩ (by decide)
  · simpa [Span.width] using cells ⟨1, 3⟩ (by decide)
  · simpa [Span.width, catalan_two] using cells ⟨0, 3⟩ (by decide)
  · simpa [catalan_two] using length

end Grammar.Dense

end ChartParser
