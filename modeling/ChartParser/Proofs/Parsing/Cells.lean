import ChartParser.Proofs.Chart.Progress
import ChartParser.Proofs.Parsing.Exactness

/-!
# Cells on the way

While a sentence is parsed, the entries of a cell point to tokens and to entries
that are there, so a tree can be read off at every entry of every chart that is
reached (`Chart.WellFormed.exists_tree`). The step for a span reads cells that
have been stored and writes one that has not (`Filling.Progress.orderly`), so what
an entry points to never changes.
-/

namespace ChartParser

namespace Grammar

variable {grammar : Grammar} {tokens : List Token} {span : Span}

/-- An entry determines its tree. -/
theorem eq_of_mem_listing {entry : Entry} {first second : Tree}
    (firstListed : (entry, first) ∈ grammar.listing tokens span)
    (secondListed : (entry, second) ∈ grammar.listing tokens span) : first = second := by
  by_cases one : span.width = 1
  · rw [listing, if_pos one] at firstListed secondListed
    cases found : tokens[span.start]? with
    | none => simp [found] at firstListed
    | some token =>
        simp only [found, Option.elim_some, List.mem_map, Prod.mk.injEq] at firstListed secondListed
        obtain ⟨_, _, rfl, rfl⟩ := firstListed
        obtain ⟨_, _, same, rfl⟩ := secondListed
        cases same
        rfl
  · obtain ⟨_, _, _, left, _, right, leftAt, rightAt, _, origin, rfl⟩ :=
      (mem_listing_of_longer one).mp firstListed
    obtain ⟨_, _, _, otherLeft, _, otherRight, otherLeftAt, otherRightAt, _, otherOrigin, rfl⟩ :=
      (mem_listing_of_longer one).mp secondListed
    cases origin.symm.trans otherOrigin
    cases leftAt.symm.trans otherLeftAt
    cases rightAt.symm.trans otherRightAt
    rfl

/-- No entry belongs twice into a cell. -/
theorem Consistent.nodup_entries (consistent : grammar.Consistent)
    (within : span.Within tokens.length) : (grammar.entries tokens span).Nodup := by
  have trees := consistent.nodup_derivations within
  rw [← listing_map_snd, List.Nodup, List.pairwise_map] at trees
  rw [entries, List.Nodup, List.pairwise_map]
  apply trees.imp_of_mem
  rintro ⟨entry, first⟩ ⟨_, second⟩ firstListed secondListed different rfl
  exact different (eq_of_mem_listing firstListed secondListed)

/-- An entry that belongs into a cell and points to a token carries a name of that token. -/
theorem mem_entries_token {symbol : Symbol} {position : Nat} (within : span.Within tokens.length)
    (member : ⟨symbol, .token position⟩ ∈ grammar.entries tokens span) :
    span = .single position ∧
      ∃ token, tokens[position]? = some token ∧ symbol ∈ grammar.namesForToken token := by
  by_cases one : span.width = 1
  · have inBounds : span.start < tokens.length := Nat.lt_of_lt_of_le within.1 within.2
    rw [Span.eq_single_of_width one, entries_single inBounds] at member
    obtain ⟨name, found, same⟩ := List.mem_map.mp member
    cases same
    exact ⟨Span.eq_single_of_width one, _, List.getElem?_eq_getElem inBounds, found⟩
  · obtain ⟨⟨_, tree⟩, listed, rfl⟩ := List.mem_map.mp member
    obtain ⟨_, _, _, _, _, _, _, _, _, origin, _⟩ := (mem_listing_of_longer one).mp listed
    cases origin

/-- An entry that belongs into a cell and points to two others carries a name of their pair. -/
theorem mem_entries_split {symbol : Symbol} {middle leftPosition rightPosition : Nat}
    (within : span.Within tokens.length)
    (member : ⟨symbol, .split middle leftPosition rightPosition⟩ ∈ grammar.entries tokens span) :
    (span.start < middle ∧ middle < span.stop) ∧
      ∃ left right : Entry,
        (grammar.entries tokens ⟨span.start, middle⟩)[leftPosition]? = some left ∧
        (grammar.entries tokens ⟨middle, span.stop⟩)[rightPosition]? = some right ∧
        symbol ∈ grammar.namesForPair left.symbol right.symbol := by
  have entryAt : ∀ {part : Span} {position : Nat} {tree : Tree},
      (grammar.derivations tokens part)[position]? = some tree →
        ∃ entry : Entry, (grammar.entries tokens part)[position]? = some entry ∧
          entry.symbol = tree.symbol := by
    intro part position tree found
    have symbols := congrArg (·[position]?) (grammar.entries_map_symbol tokens part)
    simpa only [List.getElem?_map, found, Option.map_some, Option.map_eq_some_iff] using symbols
  by_cases one : span.width = 1
  · have inBounds : span.start < tokens.length := Nat.lt_of_lt_of_le within.1 within.2
    rw [Span.eq_single_of_width one, entries_single inBounds] at member
    obtain ⟨name, _, same⟩ := List.mem_map.mp member
    cases same
  · obtain ⟨⟨_, tree⟩, listed, rfl⟩ := List.mem_map.mp member
    obtain ⟨_, inside, _, leftTree, _, rightTree, leftAt, rightAt, found, origin, _⟩ :=
      (mem_listing_of_longer one).mp listed
    cases origin
    obtain ⟨left, leftEntry, leftSymbol⟩ := entryAt leftAt
    obtain ⟨right, rightEntry, rightSymbol⟩ := entryAt rightAt
    rw [← leftSymbol, ← rightSymbol] at found
    exact ⟨inside, left, right, leftEntry, rightEntry, found⟩

end Grammar

namespace Chart

variable {chart : Chart} {grammar : Grammar} {tokens : List Token}

/-- Every span has its cell, and every entry points to what is there and carries a name of it. -/
structure WellFormed (chart : Chart) (grammar : Grammar) (tokens : List Token) : Prop where
  allocated : ∀ {span : Span}, span.Within tokens.length →
    span.index chart.length < chart.cells.size
  token : ∀ {span : Span} {symbol : Symbol} {position : Nat}, span.Within tokens.length →
    ⟨symbol, .token position⟩ ∈ chart.cell span →
      span = .single position ∧
        ∃ token, tokens[position]? = some token ∧ symbol ∈ grammar.namesForToken token
  split : ∀ {span : Span} {symbol : Symbol} {middle leftPosition rightPosition : Nat},
    span.Within tokens.length →
    ⟨symbol, .split middle leftPosition rightPosition⟩ ∈ chart.cell span →
      (span.start < middle ∧ middle < span.stop) ∧
        ∃ left right : Entry,
          (chart.cell ⟨span.start, middle⟩)[leftPosition]? = some left ∧
          (chart.cell ⟨middle, span.stop⟩)[rightPosition]? = some right ∧
          symbol ∈ grammar.namesForPair left.symbol right.symbol
  distinct : ∀ {span : Span}, span.Within tokens.length → (chart.cell span).toList.Nodup

/-- At every entry of a well-formed chart there is a tree to read off. It carries the symbol of the
entry and derives the tokens of its span. -/
theorem WellFormed.exists_tree (wellFormed : chart.WellFormed grammar tokens)
    {span : Span} (within : span.Within tokens.length) {position : Nat} {entry : Entry}
    (found : (chart.cell span)[position]? = some entry) :
    ∃ tree, chart.tree? tokens span position = some tree ∧ tree.symbol = entry.symbol ∧
      tree.leaves = span.slice tokens := by
  have member := Array.mem_of_getElem? found
  obtain ⟨symbol, origin⟩ := entry
  rw [tree?, found]
  cases origin with
  | token place =>
      obtain ⟨rfl, token, here, _⟩ := wellFormed.token within member
      obtain ⟨inBounds, rfl⟩ := List.getElem?_eq_some_iff.mp here
      refine ⟨.leaf symbol tokens[place], by simp [inBounds], rfl, ?_⟩
      rw [Span.slice_single inBounds]
      rfl
  | split middle leftPosition rightPosition =>
      obtain ⟨inside, left, right, leftAt, rightAt, _⟩ := wellFormed.split within member
      have parts := within.parts inside
      -- Both sides are shorter than the span.
      obtain ⟨leftTree, leftRead, _, leftLeaves⟩ := wellFormed.exists_tree parts.1 leftAt
      obtain ⟨rightTree, rightRead, _, rightLeaves⟩ := wellFormed.exists_tree parts.2 rightAt
      refine ⟨.node symbol leftTree rightTree, by simp [inside, leftRead, rightRead], rfl, ?_⟩
      rw [Tree.leaves, leftLeaves, rightLeaves, Span.slice_append inside]
termination_by span.stop - span.start

/-- At every entry of the chart there is a tree that derives the tokens of the entry's span. -/
def Readable (chart : Chart) (tokens : List Token) : Prop :=
  ∀ {span : Span}, span.Within tokens.length → ∀ {position : Nat},
    position < (chart.cell span).size →
      ∃ tree, chart.tree? tokens span position = some tree ∧ tree.leaves = span.slice tokens

/-- Trees can be read off a well-formed chart. -/
theorem WellFormed.readable (wellFormed : chart.WellFormed grammar tokens) :
    chart.Readable tokens := by
  intro span within position inBounds
  obtain ⟨tree, read, _, leaves⟩ :=
    wellFormed.exists_tree within (Array.getElem?_eq_getElem inBounds)
  exact ⟨tree, read, leaves⟩

/-- Charts with the same row of cells are well-formed together. -/
theorem WellFormed.of_cells {other : Chart} (wellFormed : chart.WellFormed grammar tokens)
    (length : other.length = chart.length) (cells : other.cells = chart.cells) :
    other.WellFormed grammar tokens := by
  have cell : other.cell = chart.cell := by
    funext span
    simp only [Chart.cell, length, cells]
  constructor
  · rw [length, cells]
    exact wellFormed.allocated
  · rw [cell]
    exact wellFormed.token
  · rw [cell]
    exact wellFormed.split
  · rw [cell]
    exact wellFormed.distinct

/-- Two charts have created equally many entries within one budget, and have the same cells for some
spans. -/
structure AgreesOn (spans : List Span) (first second : Chart) : Prop where
  created : second.created = first.created
  budget : second.budget = first.budget
  cell : ∀ span ∈ spans, second.cell span = first.cell span

/-- An entry is collected alike. -/
theorem AgreesOn.collect_eq {spans : List Span} {first second : Chart}
    (agrees : AgreesOn spans first second) : second.collect = first.collect := by
  funext cell entry
  simp only [collect, exceededBy, agrees.created, agrees.budget]

/-- What is collected for a token depends on no cell. -/
theorem AgreesOn.collectToken_eq {spans : List Span} {first second : Chart}
    (agrees : AgreesOn spans first second) (names : List Symbol) (position : Nat) :
    second.collectToken names position = first.collectToken names position := by
  rw [Chart.collectToken_eq, Chart.collectToken_eq, agrees.collect_eq]

/-- What is collected for a span depends only on the cells of both sides of its splits. -/
theorem AgreesOn.collectSpan_eq {spans : List Span} {first second : Chart} {span : Span}
    (agrees : AgreesOn spans first second)
    (sides : ∀ middle ∈ span.splits,
      ⟨span.start, middle⟩ ∈ spans ∧ ⟨middle, span.stop⟩ ∈ spans) (grammar : Grammar) :
    second.collectSpan grammar span = first.collectSpan grammar span := by
  have entries : second.spanEntries grammar span = first.spanEntries grammar span := by
    apply List.flatMap_congr
    intro middle inside
    rw [agrees.cell _ (sides middle inside).1, agrees.cell _ (sides middle inside).2]
  rw [Chart.collectSpan_eq, Chart.collectSpan_eq, agrees.collect_eq, entries]

end Chart

namespace Filling

open Grammar (bracketing reachable_bracketing)

variable {grammar : Grammar} {budget : Budget} {tokens : List Token} {stored : List Span}
  {span : Span} {filling : Filling} {fillNext : Filling → Except Interruption Filling}

/-- After the cells of some spans have been stored, the step for the next one reads only these and
writes none of them. -/
structure Orderly (grammar : Grammar) (stored : List Span) (filling : Filling) (span : Span)
    (fillNext : Filling → Except Interruption Filling) : Prop where
  sides : ∀ middle ∈ span.splits, ⟨span.start, middle⟩ ∈ stored ∧ ⟨middle, span.stop⟩ ∈ stored
  reads : ∀ chart, filling.chart.AgreesOn stored chart →
    (∀ names position,
      chart.collectToken names position = filling.chart.collectToken names position) ∧
    chart.collectSpan grammar span = filling.chart.collectSpan grammar span
  fresh : ∀ part ∈ stored, part.index filling.chart.length ≠ span.index filling.chart.length
  writes : ∀ {next}, fillNext filling = .ok next → next.chart.length = filling.chart.length ∧
    ∀ place, place ≠ span.index filling.chart.length →
      next.chart.cells[place]? = filling.chart.cells[place]?

/-- Every step reads what has been stored and writes what has not. -/
theorem Progress.orderly (progress : Progress grammar budget tokens stored filling)
    (turn : Next grammar tokens stored span fillNext) :
    Orderly grammar stored filling span fillNext := by
  obtain ⟨later, visits⟩ := turn.visits
  have length : filling.chart.length = tokens.length := by
    rw [progress.eq_reached, length_reached]
  have sides : ∀ middle ∈ span.splits,
      ⟨span.start, middle⟩ ∈ stored ∧ ⟨middle, span.stop⟩ ∈ stored :=
    fun middle inside => Span.sides_mem_before visits (Span.mem_splits.mp inside)
  refine ⟨sides, fun chart agrees =>
    ⟨agrees.collectToken_eq, agrees.collectSpan_eq sides grammar⟩, ?_, ?_⟩
  · intro part member
    have partWithin := Span.within_of_isPrefix_all progress.isPrefix part member
    rw [length]
    intro same
    obtain rfl := Span.index_injective partWithin turn.within same
    exact turn.not_mem member
  · intro next succeeds
    have reaches := (Progress.step progress turn succeeds).eq_reached
    rw [reached_concat, ← progress.eq_reached] at reaches
    subst reaches
    refine ⟨rfl, fun place elsewhere => ?_⟩
    simp only [put, log, Chart.put]
    exact Array.getElem?_setIfInBounds_ne elsewhere.symm

/-- A cell that has been stored stays as it is. -/
theorem Progress.cell_later {later : List Span} {next : Filling}
    (progress : Progress grammar budget tokens stored filling)
    (further : Progress grammar budget tokens (stored ++ later) next) (member : span ∈ stored) :
    next.chart.cell span = filling.chart.cell span := by
  have within := Span.within_of_isPrefix_all progress.isPrefix span member
  rw [progress.cell_eq within, further.cell_eq within, if_pos member,
    if_pos (List.mem_append_left later member)]

/-- Every chart that is reached is well-formed. -/
theorem Progress.wellFormed (consistent : grammar.Consistent)
    (progress : Progress grammar budget tokens stored filling) :
    filling.chart.WellFormed grammar tokens := by
  have begins := progress.isPrefix
  constructor
  · intro span within
    rw [progress.eq_reached, length_reached, allocated_reached]
    exact Span.index_lt_count within
  · intro span symbol position within member
    rw [progress.cell_eq within] at member
    split at member
    · exact Grammar.mem_entries_token within (List.mem_toArray.mp member)
    · simp at member
  · intro span symbol middle leftPosition rightPosition within member
    rw [progress.cell_eq within] at member
    split at member
    · next here =>
      obtain ⟨inside, left, right, leftAt, rightAt, found⟩ :=
        Grammar.mem_entries_split within (List.mem_toArray.mp member)
      have parts := within.parts inside
      have sides := Span.sides_mem_of_isPrefix_all begins here inside
      refine ⟨inside, left, right, ?_, ?_, found⟩
      · rw [progress.cell_eq parts.1, if_pos sides.1, List.getElem?_toArray]
        exact leftAt
      · rw [progress.cell_eq parts.2, if_pos sides.2, List.getElem?_toArray]
        exact rightAt
    · simp at member
  · intro span within
    rw [progress.cell_eq within]
    split
    · exact consistent.nodup_entries within
    · exact List.nodup_nil

/-- The chart with which filling ends is well-formed, whether all spans have their cells or not. -/
theorem wellFormed_ending (consistent : grammar.Consistent) (budget : Budget)
    (tokens : List Token) : (ending grammar budget tokens).chart.WellFormed grammar tokens := by
  rw [ending]
  rcases fill_cases grammar budget tokens with
    ⟨final, run, all⟩ | ⟨_, _, _, interruption, interrupted, run⟩
  · rw [run]
    exact all.wellFormed consistent
  · obtain ⟨created, left⟩ := interrupted.chart_eq
    rw [run]
    simp only [left]
    exact (interrupted.progress.wellFormed consistent).of_cells rfl rfl

/-- Filling goes through well-formed charts only, in each of which a tree can be read off at every
entry. No step reads a cell that has not been stored, and no cell changes once it has been stored,
however filling ends. -/
theorem charts_wellFormed (reachable : grammar.Reachable) (budget : Budget)
    (tokens : List Token) :
    ((∃ filling, fill grammar budget tokens = .ok filling ∧
        Progress grammar budget tokens (Span.all tokens.length) filling) ∨
      ∃ stored filling span interruption,
        Interrupted grammar budget tokens stored filling span interruption ∧
        fill grammar budget tokens = .error interruption) ∧
    (∀ stored filling, Progress grammar budget tokens stored filling →
      filling.chart.WellFormed grammar tokens ∧ filling.chart.Readable tokens ∧
      (∀ span fillNext, Next grammar tokens stored span fillNext →
        Orderly grammar stored filling span fillNext) ∧
      (∀ later next, Progress grammar budget tokens (stored ++ later) next →
        ∀ span ∈ stored, next.chart.cell span = filling.chart.cell span) ∧
      ∀ span ∈ stored,
        (ending grammar budget tokens).chart.cell span = filling.chart.cell span) ∧
    (ending grammar budget tokens).chart.WellFormed grammar tokens ∧
      (ending grammar budget tokens).chart.Readable tokens := by
  have consistent := reachable.consistent
  have last := wellFormed_ending consistent budget tokens
  refine ⟨fill_cases grammar budget tokens, ?_, last, last.readable⟩
  intro stored filling progress
  have wellFormed := progress.wellFormed consistent
  exact ⟨wellFormed, wellFormed.readable, fun _ _ turn => progress.orderly turn,
    fun _ _ further _ member => progress.cell_later further member,
    fun _ member => progress.cell_ending member⟩

/-- Six entries are not enough for three tokens. The step that fails is in order all the same, and
the tree over the first two tokens can be read off the chart that is left. -/
theorem bracketing_read_off_after_overrun :
    bracketing.Reachable ∧
      (∃ stored filling span fillNext,
        Progress bracketing (.entries 6) ["a", "a", "a"] stored filling ∧
        Next bracketing ["a", "a", "a"] stored span fillNext ∧
        (fillNext filling).isOk = false ∧
        filling.chart.WellFormed bracketing ["a", "a", "a"] ∧
        Orderly bracketing stored filling span fillNext) ∧
      ∃ tree, (ending bracketing (.entries 6) ["a", "a", "a"]).chart.tree? ["a", "a", "a"]
        ⟨0, 2⟩ 0 = some tree ∧ tree.leaves = ["a", "a"] := by
  obtain ⟨outcome, between, _, readable⟩ :=
    charts_wellFormed reachable_bracketing (.entries 6) ["a", "a", "a"]
  refine ⟨reachable_bracketing, ?_, readable (by decide) (by decide +kernel)⟩
  rcases outcome with ⟨filling, run, _⟩ | ⟨stored, filling, span, interruption, interrupted, _⟩
  · have fails : (fill bracketing (.entries 6) ["a", "a", "a"]).isOk = false := by decide +kernel
    rw [run] at fails
    cases fails
  · obtain ⟨progress, turn, fails⟩ := interrupted
    obtain ⟨wellFormed, _, inOrder, _⟩ := between stored filling progress
    refine ⟨stored, filling, span, _, progress, turn, ?_, wellFormed, inOrder span _ turn⟩
    rw [fails]
    rfl

end Filling

end ChartParser
