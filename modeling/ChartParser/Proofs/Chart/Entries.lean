import ChartParser.Chart.Basic
import ChartParser.Derivation.Enumeration
import Mathlib.Data.List.Basic

/-!
# Entries and the trees they stand for

The entries that belong into a cell can be listed without a chart: an entry
points to the derivations of the two sides of its span by their position in the
enumeration. `Chart.tree?_eq` says that a chart with these entries reads off, at
every position of a cell, the derivation at that position.
-/

namespace ChartParser

namespace Grammar

variable {grammar : Grammar} {tokens : List Token} {span : Span}

/-- The entries that put a name over one derivation of each side of a split position, with the
trees they stand for. Both sides are known by their position in a list. -/
def splitListing (grammar : Grammar) (middle : Nat) (lefts rights : List Tree) :
    List (Entry × Tree) :=
  lefts.zipIdx.flatMap fun left =>
    rights.zipIdx.flatMap fun right =>
      (grammar.namesForPair left.1.symbol right.1.symbol).map fun name =>
        (⟨name, .split middle left.2 right.2⟩, .node name left.1 right.1)

/-- The entries of a span with the trees they stand for. -/
def listing (grammar : Grammar) (tokens : List Token) (span : Span) : List (Entry × Tree) :=
  if span.width = 1 then
    tokens[span.start]?.elim [] fun token =>
      (grammar.namesForToken token).map fun name =>
        (⟨name, .token span.start⟩, .leaf name token)
  else
    span.splits.flatMap fun middle =>
      grammar.splitListing middle (grammar.derivations tokens ⟨span.start, middle⟩)
        (grammar.derivations tokens ⟨middle, span.stop⟩)

/-- The entries that belong into the cell of a span. -/
def entries (grammar : Grammar) (tokens : List Token) (span : Span) : List Entry :=
  (grammar.listing tokens span).map Prod.fst

/-- What is done with every item of a list, and not with its position, needs no positions. -/
theorem flatMap_zipIdx_fst {Item Part : Type} (items : List Item) (parts : Item → List Part) :
    (items.zipIdx.flatMap fun item => parts item.1) = items.flatMap parts := by
  rw [← List.flatMap_map Prod.fst parts, List.zipIdx_map_fst]

/-- The trees of the entries of a span are its derivations, in the same order. -/
theorem listing_map_snd (grammar : Grammar) (tokens : List Token) (span : Span) :
    (grammar.listing tokens span).map Prod.snd = grammar.derivations tokens span := by
  by_cases one : span.width = 1
  · rw [listing, derivations, if_pos one, if_pos one]
    cases tokens[span.start]? with
    | none => rfl
    | some token => simp [tokenDerivations]
  · rw [listing, if_neg one, derivations_of_longer one, List.map_flatMap]
    apply List.flatMap_congr
    intro middle _
    simp only [splitListing, combine, List.map_flatMap, List.map_map, Function.comp_def]
    rw [← flatMap_zipIdx_fst (grammar.derivations tokens ⟨span.start, middle⟩)]
    apply List.flatMap_congr
    intro left _
    exact flatMap_zipIdx_fst (grammar.derivations tokens ⟨middle, span.stop⟩) fun right =>
      (grammar.namesForPair left.1.symbol right.symbol).map fun name => Tree.node name left.1 right

/-- An entry of a single token points to the token, and stands for a leaf. -/
theorem listing_single {position : Nat} (inBounds : position < tokens.length) :
    grammar.listing tokens (.single position) =
      (grammar.namesForToken tokens[position]).map fun name =>
        (⟨name, .token position⟩, .leaf name tokens[position]) := by
  rw [listing, if_pos (Span.width_single position)]
  simp [Span.single, inBounds]

/-- The cell of a single token has one entry for every name that expands to the token. -/
theorem entries_single {position : Nat} (inBounds : position < tokens.length) :
    grammar.entries tokens (.single position) =
      (grammar.namesForToken tokens[position]).map fun name => ⟨name, .token position⟩ := by
  rw [entries, listing_single inBounds, List.map_map]
  rfl

/-- An entry of a longer span points to a derivation of each side of a split position, and stands
for a node over the two. -/
theorem mem_listing_of_longer (longer : span.width ≠ 1) {entry : Entry} {tree : Tree} :
    (entry, tree) ∈ grammar.listing tokens span ↔
      ∃ middle, (span.start < middle ∧ middle < span.stop) ∧
        ∃ leftPosition left rightPosition right,
          (grammar.derivations tokens ⟨span.start, middle⟩)[leftPosition]? = some left ∧
          (grammar.derivations tokens ⟨middle, span.stop⟩)[rightPosition]? = some right ∧
          entry.symbol ∈ grammar.namesForPair left.symbol right.symbol ∧
          entry.origin = .split middle leftPosition rightPosition ∧
          tree = .node entry.symbol left right := by
  rw [listing, if_neg longer]
  simp only [splitListing, List.mem_flatMap, List.mem_map, Span.mem_splits, Prod.exists,
    List.mem_zipIdx_iff_getElem?, Prod.mk.injEq]
  constructor
  · rintro ⟨middle, inside, left, leftPosition, leftAt, right, rightPosition, rightAt, name, found,
      rfl, rfl⟩
    exact ⟨middle, inside, leftPosition, left, rightPosition, right, leftAt, rightAt, found, rfl,
      rfl⟩
  · rintro ⟨middle, inside, leftPosition, left, rightPosition, right, leftAt, rightAt, found,
      origin, rfl⟩
    obtain ⟨symbol, _⟩ := entry
    cases origin
    exact ⟨middle, inside, left, leftPosition, leftAt, right, rightPosition, rightAt, symbol, found,
      rfl, rfl⟩

/-- An entry carries the symbol at the root of its tree. -/
theorem symbol_eq_of_mem_listing {entry : Entry} {tree : Tree}
    (member : (entry, tree) ∈ grammar.listing tokens span) : entry.symbol = tree.symbol := by
  by_cases one : span.width = 1
  · rw [listing, if_pos one] at member
    cases found : tokens[span.start]? with
    | none => simp [found] at member
    | some token =>
        rw [found] at member
        obtain ⟨name, _, same⟩ := List.mem_map.mp member
        cases same
        rfl
  · obtain ⟨_, _, _, _, _, _, _, _, _, _, rfl⟩ := (mem_listing_of_longer one).mp member
    rfl

/-- The entries of a span carry the symbols of its derivations, in the same order. -/
theorem entries_map_symbol (grammar : Grammar) (tokens : List Token) (span : Span) :
    (grammar.entries tokens span).map Entry.symbol =
      (grammar.derivations tokens span).map Tree.symbol := by
  rw [entries, ← listing_map_snd, List.map_map, List.map_map]
  apply List.map_congr_left
  rintro ⟨entry, tree⟩ member
  exact symbol_eq_of_mem_listing member

/-- A span has as many entries as derivations. -/
theorem length_entries (grammar : Grammar) (tokens : List Token) (span : Span) :
    (grammar.entries tokens span).length = (grammar.derivations tokens span).length := by
  rw [entries, ← listing_map_snd, List.length_map, List.length_map]

end Grammar

namespace Chart

variable {chart : Chart} {grammar : Grammar} {tokens : List Token} {span : Span}

/-- The cell of a span holds the entries that belong there. -/
def Holds (chart : Chart) (grammar : Grammar) (tokens : List Token) (span : Span) : Prop :=
  (chart.cell span).toList = grammar.entries tokens span

/-- Where a span and all of its parts hold their entries, the trees that are read off its cell are
its derivations, position by position. -/
theorem tree?_eq (within : span.Within tokens.length)
    (holds : ∀ part : Span, span.start ≤ part.start → part.start < part.stop →
      part.stop ≤ span.stop → chart.Holds grammar tokens part) (position : Nat) :
    chart.tree? tokens span position = (grammar.derivations tokens span)[position]? := by
  induction span using Grammar.derivations.induct generalizing position with
  | case1 span one =>
      have inBounds : span.start < tokens.length := Nat.lt_of_lt_of_le within.1 within.2
      have here := holds span (Nat.le_refl _) within.1 (Nat.le_refl _)
      rw [Holds, Grammar.entries] at here
      rw [tree?, ← Grammar.listing_map_snd, ← Array.getElem?_toList, here]
      rw [Span.eq_single_of_width one, Grammar.listing_single inBounds]
      simp only [List.getElem?_map]
      cases (grammar.namesForToken tokens[span.start])[position]? with
      | none => rfl
      | some name => simp [inBounds]
  | case2 span longer leftHypothesis rightHypothesis =>
      have here := holds span (Nat.le_refl _) within.1 (Nat.le_refl _)
      rw [Holds, Grammar.entries] at here
      rw [tree?, ← Grammar.listing_map_snd, ← Array.getElem?_toList, here]
      simp only [List.getElem?_map]
      cases listed : (grammar.listing tokens span)[position]? with
      | none => rfl
      | some pair =>
          obtain ⟨⟨symbol, origin⟩, tree⟩ := pair
          obtain ⟨middle, inside, leftPosition, left, rightPosition, right, leftAt, rightAt, _,
            pointer, rfl⟩ := (Grammar.mem_listing_of_longer longer).mp (List.mem_of_getElem? listed)
          have splits := Span.mem_splits.mpr inside
          have parts := within.parts inside
          -- The halves of the span hold their entries because their parts are parts of the span.
          have leftTree := leftHypothesis middle splits parts.1
            (fun part starts nonempty stops => holds part starts nonempty
              (Nat.le_trans stops (Nat.le_of_lt inside.2))) leftPosition
          have rightTree := rightHypothesis middle splits parts.2
            (fun part starts nonempty stops => holds part
              (Nat.le_trans (Nat.le_of_lt inside.1) starts) nonempty stops) rightPosition
          simp only at pointer
          subst pointer
          simp [inside, leftTree, rightTree, leftAt, rightAt]

end Chart

end ChartParser
