import ChartParser.Chart.Filling
import ChartParser.Proofs.Chart.Entries

/-!
# Collecting the entries of a cell

However the loops over names, splits and halves are nested, a cell is collected
from one list of entries. A budget that covers all of them changes nothing; one
that does not stops the collection at the first entry that goes over it, so that
exactly one entry too many has been created.
-/

namespace ChartParser

namespace Budget

/-- The budget allows so many entries. -/
def Covers : Budget → Nat → Prop
  | unlimited, _ => True
  | entries limit, count => count ≤ limit

instance (budget : Budget) (count : Nat) : Decidable (budget.Covers count) :=
  match budget with
  | unlimited => inferInstanceAs (Decidable True)
  | entries limit => inferInstanceAs (Decidable (count ≤ limit))

/-- No budget forbids a chart without entries. -/
theorem covers_zero (budget : Budget) : budget.Covers 0 := by
  cases budget with
  | unlimited => trivial
  | entries limit => exact Nat.zero_le limit

/-- A budget that allows many entries allows fewer. -/
theorem Covers.mono {budget : Budget} {fewer count : Nat} (covers : budget.Covers count)
    (ordered : fewer ≤ count) : budget.Covers fewer := by
  cases budget with
  | unlimited => trivial
  | entries limit => exact Nat.le_trans ordered covers

/-- A budget that does not allow so many entries has a limit below them. -/
theorem exists_limit_of_not_covers {budget : Budget} {count : Nat}
    (overrun : ¬ budget.Covers count) :
    ∃ limit, budget = .entries limit ∧ limit < count := by
  cases budget with
  | unlimited => exact absurd trivial overrun
  | entries limit => exact ⟨limit, rfl, Nat.lt_of_not_le overrun⟩

end Budget

/-- A fold over a list that is made of parts folds over one part after the other. -/
theorem foldlM_flatMap {Item Part State Failure : Type} (items : List Item)
    (parts : Item → List Part) (step : State → Part → Except Failure State) (state : State) :
    (items.flatMap parts).foldlM step state =
      items.foldlM (fun state item => (parts item).foldlM step state) state := by
  induction items generalizing state with
  | nil => rfl
  | cons item items inductionHypothesis =>
      simp only [List.flatMap_cons, List.foldlM_append, List.foldlM_cons, inductionHypothesis]

namespace Chart

variable {chart : Chart} {grammar : Grammar} {tokens : List Token} {span : Span}

/-- No limit is exceeded exactly when the budget covers what has been created and what is
pending. -/
theorem exceededBy_of_covers (chart : Chart) (pending : Nat)
    (covers : chart.budget.Covers (chart.created + pending)) :
    chart.exceededBy pending = none := by
  unfold exceededBy
  cases limited : chart.budget with
  | unlimited => rfl
  | entries limit =>
      rw [limited] at covers
      exact if_neg (Nat.not_lt.mpr covers)

/-- A limit below what has been created and what is pending is exceeded. -/
theorem exceededBy_of_lt {limit pending : Nat} (limited : chart.budget = .entries limit)
    (overrun : limit < chart.created + pending) : chart.exceededBy pending = some limit := by
  unfold exceededBy
  rw [limited]
  exact if_pos overrun

/-- Entries that the budget covers are all collected, in order. -/
theorem foldlM_collect_of_covers (entries : List Entry) (cell : Cell)
    (covers : chart.budget.Covers (chart.created + (cell.size + entries.length))) :
    entries.foldlM chart.collect cell = .ok (cell ++ entries.toArray) := by
  induction entries generalizing cell with
  | nil => simp [pure, Except.pure]
  | cons entry entries inductionHypothesis =>
      have grown : chart.collect cell entry = .ok (cell.push entry) := by
        have within := exceededBy_of_covers chart (cell.push entry).size
          (covers.mono (by simp only [Array.size_push, List.length_cons]; omega))
        simp only [collect, within]
      have rest := inductionHypothesis (cell.push entry)
        (covers.mono (by simp only [Array.size_push, List.length_cons]; omega))
      rw [List.foldlM_cons, grown]
      apply rest.trans
      simp

/-- The first entry over the limit is the last one that is collected. -/
theorem foldlM_collect_of_overrun {limit : Nat} (limited : chart.budget = .entries limit)
    (entries : List Entry) (cell : Cell) (fits : chart.created + cell.size ≤ limit)
    (overrun : limit < chart.created + (cell.size + entries.length)) :
    ∃ grown, entries.foldlM chart.collect cell = .error grown ∧
      chart.created + grown.size = limit + 1 := by
  induction entries generalizing cell with
  | nil =>
      simp only [List.length_nil] at overrun
      omega
  | cons entry entries inductionHypothesis =>
      by_cases last : limit < chart.created + (cell.push entry).size
      · refine ⟨cell.push entry, ?_, ?_⟩
        · have exceeded := exceededBy_of_lt limited last
          rw [List.foldlM_cons]
          simp only [collect, exceeded]
          rfl
        · simp only [Array.size_push] at last ⊢
          omega
      · have covers : chart.budget.Covers (chart.created + (cell.push entry).size) := by
          rw [limited]
          exact Nat.le_of_not_lt last
        obtain ⟨grown, collected, size⟩ := inductionHypothesis (cell.push entry)
          (Nat.le_of_not_lt last)
          (by simp only [Array.size_push, List.length_cons] at overrun ⊢; omega)
        refine ⟨grown, ?_, size⟩
        rw [List.foldlM_cons]
        simp only [collect, exceededBy_of_covers chart _ covers]
        exact collected

/-- The cell of a token is collected from one entry for every name. -/
theorem collectToken_eq (chart : Chart) (names : List Symbol) (position : Nat) :
    chart.collectToken names position =
      (names.map fun name => ⟨name, .token position⟩).foldlM chart.collect #[] := by
  rw [List.foldlM_map]
  rfl

/-- The entries that the halves of a span give rise to. -/
def spanEntries (chart : Chart) (grammar : Grammar) (span : Span) : List Entry :=
  span.splits.flatMap fun middle =>
    (chart.cell ⟨span.start, middle⟩).toList.zipIdx.flatMap fun left =>
      (chart.cell ⟨middle, span.stop⟩).toList.zipIdx.flatMap fun right =>
        (grammar.namesForPair left.1.symbol right.1.symbol).map fun name =>
          ⟨name, .split middle left.2 right.2⟩

/-- The cell of a longer span is collected from the entries that its halves give rise to. -/
theorem collectSpan_eq (chart : Chart) (grammar : Grammar) (span : Span) :
    chart.collectSpan grammar span =
      (chart.spanEntries grammar span).foldlM chart.collect #[] := by
  simp only [spanEntries, foldlM_flatMap, List.foldlM_map]
  rfl

/-- Entries and trees that carry the same symbols carry them at the same positions. -/
theorem zipIdx_map_symbol {entries : List Entry} {trees : List Tree}
    (symbols : entries.map Entry.symbol = trees.map Tree.symbol) :
    entries.zipIdx.map (Prod.map Entry.symbol id) = trees.zipIdx.map (Prod.map Tree.symbol id) := by
  rw [← List.zipIdx_map, symbols, List.zipIdx_map]

/-- What is done with every symbol of a list and its position can be done with that of a tree as
well as with that of an entry. -/
theorem flatMap_zipIdx_of_symbols {Part : Type} {entries : List Entry} {trees : List Tree}
    (symbols : entries.map Entry.symbol = trees.map Tree.symbol)
    (parts : Symbol → Nat → List Part) :
    (entries.zipIdx.flatMap fun entry => parts entry.1.symbol entry.2) =
      trees.zipIdx.flatMap fun tree => parts tree.1.symbol tree.2 := by
  have numbered := congrArg (List.flatMap fun symbol => parts symbol.1 symbol.2)
    (zipIdx_map_symbol symbols)
  rw [List.flatMap_map, List.flatMap_map] at numbered
  exact numbered

/-- Halves that hold their entries give rise to the entries of their span. -/
theorem spanEntries_eq (longer : span.width ≠ 1)
    (holds : ∀ middle ∈ span.splits, chart.Holds grammar tokens ⟨span.start, middle⟩ ∧
      chart.Holds grammar tokens ⟨middle, span.stop⟩) :
    chart.spanEntries grammar span = grammar.entries tokens span := by
  rw [spanEntries, Grammar.entries, Grammar.listing, if_neg longer, List.map_flatMap]
  apply List.flatMap_congr
  intro middle inside
  obtain ⟨leftHolds, rightHolds⟩ := holds middle inside
  have leftSymbols := grammar.entries_map_symbol tokens ⟨span.start, middle⟩
  have rightSymbols := grammar.entries_map_symbol tokens ⟨middle, span.stop⟩
  rw [← leftHolds] at leftSymbols
  rw [← rightHolds] at rightSymbols
  simp only [Grammar.splitListing, List.map_flatMap, List.map_map, Function.comp_def]
  rw [flatMap_zipIdx_of_symbols leftSymbols fun leftSymbol leftPosition =>
    (chart.cell ⟨middle, span.stop⟩).toList.zipIdx.flatMap fun right =>
      (grammar.namesForPair leftSymbol right.1.symbol).map fun name =>
        (⟨name, .split middle leftPosition right.2⟩ : Entry)]
  apply List.flatMap_congr
  intro left _
  exact flatMap_zipIdx_of_symbols rightSymbols fun rightSymbol rightPosition =>
    (grammar.namesForPair left.1.symbol rightSymbol).map fun name =>
      (⟨name, .split middle left.2 rightPosition⟩ : Entry)

end Chart

end ChartParser
