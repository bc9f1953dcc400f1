import ChartParser.Proofs.Chart.Collecting
import ChartParser.Proofs.Chart.Order
import ChartParser.Proofs.Chart.Place

/-!
# What filling a chart reaches

`Filling.reached` is the filling in which the cells of some spans have been
stored, each with the entries that belong there. `fill_of_known` and
`fill_of_unknown` say that filling visits spans in their order from one reached
filling to the next, until all spans are visited, a token is unknown or the
budget does not cover the next cell.
-/

namespace ChartParser

namespace Grammar

/-- The number of entries in the cells of some spans. -/
def entryCount (grammar : Grammar) (tokens : List Token) (spans : List Span) : Nat :=
  (spans.map fun span => (grammar.derivations tokens span).length).sum

/-- The cells of more spans have more entries. -/
theorem entryCount_append (grammar : Grammar) (tokens : List Token) (first second : List Span) :
    grammar.entryCount tokens (first ++ second) =
      grammar.entryCount tokens first + grammar.entryCount tokens second := by
  simp [entryCount]

/-- One more span adds its derivations. -/
theorem entryCount_concat (grammar : Grammar) (tokens : List Token) (spans : List Span)
    (span : Span) :
    grammar.entryCount tokens (spans ++ [span]) =
      grammar.entryCount tokens spans + (grammar.entries tokens span).length := by
  simp [entryCount, length_entries]

end Grammar

namespace Chart

/-- Put a whole cell in its place and count its entries. -/
def put (chart : Chart) (span : Span) (cell : Cell) : Chart :=
  { chart with
    cells := chart.cells.setIfInBounds (span.index chart.length) cell
    created := chart.created + cell.size }

/-- The cell that has been put in its place is found there, and all others are left alone. -/
theorem cell_put {chart : Chart} {span other : Span}
    (allocated : chart.cells.size = Span.count chart.length) (cell : Cell)
    (within : span.Within chart.length) (otherWithin : other.Within chart.length) :
    (chart.put span cell).cell other = if other = span then cell else chart.cell other := by
  have place := Span.index_lt_count within
  simp only [put, Chart.cell, Array.getElem?_setIfInBounds]
  by_cases same : other = span
  · subst same
    simp [allocated, place]
  · have apart : span.index chart.length ≠ other.index chart.length := fun equal =>
      same (Span.index_injective otherWithin within equal.symm)
    rw [if_neg apart, if_neg same]

end Chart

namespace Filling

/-- Store the whole cell of a span and log it. -/
def put (filling : Filling) (span : Span) (entries : List Entry) : Filling :=
  { filling with chart := filling.chart.put span entries.toArray }.log
    (.filledCell span entries.length)

/-- One entry more than the limit has been created, in a cell that has not been stored. -/
def overrun (filling : Filling) (limit : Nat) : Filling :=
  { filling with chart := { filling.chart with created := limit + 1 } }

/-- A cell that the budget covers is stored whole. -/
theorem store_of_covers {filling : Filling} (span : Span) {entries : List Entry}
    (covers : filling.chart.budget.Covers (filling.chart.created + entries.length)) :
    filling.store span (entries.foldlM filling.chart.collect #[]) =
      .ok (filling.put span entries) := by
  have collected : entries.foldlM filling.chart.collect #[] = .ok (#[] ++ entries.toArray) :=
    Chart.foldlM_collect_of_covers entries #[] (by simpa using covers)
  have charged := Chart.exceededBy_of_covers
    { filling.chart with created := filling.chart.created + entries.length } 0 covers
  rw [collected]
  simp only [store, Chart.store, Array.empty_append, List.size_toArray, charged]
  rfl

/-- A cell that the budget does not cover is given up at the first entry over the limit. -/
theorem store_of_overrun {filling : Filling} (span : Span) {entries : List Entry} {limit : Nat}
    (limited : filling.chart.budget = .entries limit) (fits : filling.chart.created ≤ limit)
    (exceeds : limit < filling.chart.created + entries.length) :
    filling.store span (entries.foldlM filling.chart.collect #[]) =
      .error (.overBudget limit (filling.overrun limit)) := by
  obtain ⟨grown, collected, size⟩ := Chart.foldlM_collect_of_overrun limited entries #[]
    (by simpa using fits) (by simpa using exceeds)
  have charged : { filling.chart with created := limit + 1 }.exceededBy 0 = some limit :=
    Chart.exceededBy_of_lt limited (Nat.lt_succ_self limit)
  rw [collected]
  simp only [store, Chart.store, size, charged, overrun]

/-- Collect the entries that belong into the cell of a span, and store them. -/
def visit (grammar : Grammar) (tokens : List Token) (filling : Filling) (span : Span) :
    Except Interruption Filling :=
  filling.store span ((grammar.entries tokens span).foldlM filling.chart.collect #[])

/-- The filling in which the cells of some spans have been stored, one after the other. -/
def reached (grammar : Grammar) (tokens : List Token) (budget : Budget) (spans : List Span) :
    Filling :=
  spans.foldl (fun filling span => filling.put span (grammar.entries tokens span))
    (start tokens.length budget)

variable {grammar : Grammar} {tokens : List Token} {budget : Budget}

/-- One more span is stored last. -/
theorem reached_concat (spans : List Span) (span : Span) :
    reached grammar tokens budget (spans ++ [span]) =
      (reached grammar tokens budget spans).put span (grammar.entries tokens span) := by
  simp [reached]

/-- The chart keeps the length of its sentence. -/
@[simp] theorem length_reached (spans : List Span) :
    (reached grammar tokens budget spans).chart.length = tokens.length := by
  induction spans using List.reverseRecOn with
  | nil => rfl
  | append_singleton spans span inductionHypothesis =>
      rw [reached_concat]
      exact inductionHypothesis

/-- The chart keeps its budget. -/
@[simp] theorem budget_reached (spans : List Span) :
    (reached grammar tokens budget spans).chart.budget = budget := by
  induction spans using List.reverseRecOn with
  | nil => rfl
  | append_singleton spans span inductionHypothesis =>
      rw [reached_concat]
      exact inductionHypothesis

/-- The chart keeps a cell for every span. -/
theorem allocated_reached (spans : List Span) :
    (reached grammar tokens budget spans).chart.cells.size = Span.count tokens.length := by
  induction spans using List.reverseRecOn with
  | nil => simp [reached, start, Chart.empty]
  | append_singleton spans span inductionHypothesis =>
      rw [reached_concat, ← inductionHypothesis]
      simp [put, log, Chart.put]

/-- The chart has created the entries of the stored cells. -/
@[simp] theorem created_reached (spans : List Span) :
    (reached grammar tokens budget spans).chart.created = grammar.entryCount tokens spans := by
  induction spans using List.reverseRecOn with
  | nil => rfl
  | append_singleton spans span inductionHypothesis =>
      rw [reached_concat, Grammar.entryCount_concat, ← inductionHypothesis]
      simp [put, log, Chart.put]

/-- Every stored cell has been logged, in order, and nothing else has. -/
theorem events_reached (spans : List Span) :
    (reached grammar tokens budget spans).events.toList =
      spans.map fun span => .filledCell span (grammar.derivations tokens span).length := by
  induction spans using List.reverseRecOn with
  | nil => rfl
  | append_singleton spans span inductionHypothesis =>
      rw [reached_concat, List.map_append, ← inductionHypothesis]
      simp [put, log, Grammar.length_entries]

/-- A cell that has been stored holds the entries that belong there, and all others are empty. -/
theorem cell_reached {spans : List Span} (within : ∀ span ∈ spans, span.Within tokens.length)
    {span : Span} (spanWithin : span.Within tokens.length) :
    (reached grammar tokens budget spans).chart.cell span =
      if span ∈ spans then (grammar.entries tokens span).toArray else #[] := by
  induction spans using List.reverseRecOn with
  | nil =>
      have place := Span.index_lt_count spanWithin
      simp [reached, start, Chart.cell, Chart.empty, place]
  | append_singleton spans last inductionHypothesis =>
      have allocated : (reached grammar tokens budget spans).chart.cells.size =
          Span.count (reached grammar tokens budget spans).chart.length := by
        rw [allocated_reached, length_reached]
      have stored := Chart.cell_put allocated (grammar.entries tokens last).toArray
        (by simpa using within last (by simp)) (by simpa using spanWithin)
      have before := inductionHypothesis fun other member => within other (by simp [member])
      rw [reached_concat]
      apply stored.trans
      by_cases same : span = last
      · subst same
        simp
      · rw [if_neg same, before]
        simp [same]

/-- The chart holds the entries of every span that has been stored. -/
theorem holds_reached {spans : List Span} (within : ∀ span ∈ spans, span.Within tokens.length)
    {span : Span} (member : span ∈ spans) :
    (reached grammar tokens budget spans).chart.Holds grammar tokens span := by
  rw [Chart.Holds, cell_reached within (within span member), if_pos member]

/-- A visit that the budget covers reaches the next filling. -/
theorem visit_of_covers {spans : List Span} {span : Span}
    (covers : budget.Covers (grammar.entryCount tokens (spans ++ [span]))) :
    (reached grammar tokens budget spans).visit grammar tokens span =
      .ok (reached grammar tokens budget (spans ++ [span])) := by
  rw [Grammar.entryCount_concat] at covers
  rw [reached_concat, visit, store_of_covers]
  simpa using covers

/-- A visit that the budget does not cover creates one entry too many and stores nothing. -/
theorem visit_of_overrun {spans : List Span} {span : Span} {limit : Nat}
    (limited : budget = .entries limit) (fits : grammar.entryCount tokens spans ≤ limit)
    (exceeds : limit < grammar.entryCount tokens (spans ++ [span])) :
    (reached grammar tokens budget spans).visit grammar tokens span =
      .error (.overBudget limit ((reached grammar tokens budget spans).overrun limit)) := by
  rw [Grammar.entryCount_concat] at exceeds
  rw [visit, store_of_overrun]
  · simpa using limited
  · simpa using fits
  · simpa using exceeds

/-- A visit stores its cell, or creates one entry too many. -/
theorem visit_cases {spans : List Span} (span : Span)
    (covers : budget.Covers (grammar.entryCount tokens spans)) :
    (budget.Covers (grammar.entryCount tokens (spans ++ [span])) ∧
      (reached grammar tokens budget spans).visit grammar tokens span =
        .ok (reached grammar tokens budget (spans ++ [span]))) ∨
    ∃ limit, budget = .entries limit ∧
      limit < grammar.entryCount tokens (spans ++ [span]) ∧
      (reached grammar tokens budget spans).visit grammar tokens span =
        .error (.overBudget limit ((reached grammar tokens budget spans).overrun limit)) := by
  by_cases next : budget.Covers (grammar.entryCount tokens (spans ++ [span]))
  · exact Or.inl ⟨next, visit_of_covers next⟩
  · obtain ⟨limit, rfl, exceeds⟩ := Budget.exists_limit_of_not_covers next
    exact Or.inr ⟨limit, rfl, exceeds, visit_of_overrun rfl covers exceeds⟩

/-- Visits that the budget covers are all made. -/
theorem visits_of_covers (later : List Span) (spans : List Span)
    (covers : budget.Covers (grammar.entryCount tokens (spans ++ later))) :
    later.foldlM (visit grammar tokens) (reached grammar tokens budget spans) =
      .ok (reached grammar tokens budget (spans ++ later)) := by
  induction later generalizing spans with
  | nil => simp [pure, Except.pure]
  | cons span later inductionHypothesis =>
      rw [List.append_cons] at covers ⊢
      have first : budget.Covers (grammar.entryCount tokens (spans ++ [span])) := by
        apply covers.mono
        rw [Grammar.entryCount_append grammar tokens (spans ++ [span])]
        exact Nat.le_add_right _ _
      rw [List.foldlM_cons, visit_of_covers first]
      exact inductionHypothesis (spans ++ [span]) covers

/-- Visits that the budget does not cover end at the first span whose cell goes over it. -/
theorem visits_of_overrun {limit : Nat} (limited : budget = .entries limit) (later : List Span)
    (spans : List Span) (fits : grammar.entryCount tokens spans ≤ limit)
    (exceeds : limit < grammar.entryCount tokens (spans ++ later)) :
    ∃ before span after, later = before ++ span :: after ∧
      grammar.entryCount tokens (spans ++ before) ≤ limit ∧
      limit < grammar.entryCount tokens (spans ++ before ++ [span]) ∧
      later.foldlM (visit grammar tokens) (reached grammar tokens budget spans) =
        .error (.overBudget limit
          ((reached grammar tokens budget (spans ++ before)).overrun limit)) := by
  induction later generalizing spans with
  | nil =>
      rw [List.append_nil] at exceeds
      exact absurd exceeds (Nat.not_lt.mpr fits)
  | cons span later inductionHypothesis =>
      by_cases here : limit < grammar.entryCount tokens (spans ++ [span])
      · refine ⟨[], span, later, rfl, by simpa using fits, by simpa using here, ?_⟩
        rw [List.foldlM_cons, visit_of_overrun limited fits here, List.append_nil]
        rfl
      · have next := Nat.le_of_not_lt here
        have covers : budget.Covers (grammar.entryCount tokens (spans ++ [span])) := by
          rw [limited]
          exact next
        rw [List.append_cons] at exceeds
        obtain ⟨before, last, after, rfl, fitsBefore, exceedsLast, ends⟩ :=
          inductionHypothesis (spans ++ [span]) next exceeds
        refine ⟨span :: before, last, after, rfl, by simpa using fitsBefore,
          by simpa using exceedsLast, ?_⟩
        rw [List.foldlM_cons, visit_of_covers covers, List.append_cons spans span before]
        exact ends

/-- Visits, from a chart without entries, are all made, or end where the budget does. -/
theorem visits_cases (grammar : Grammar) (budget : Budget) (tokens : List Token)
    (spans : List Span) :
    (budget.Covers (grammar.entryCount tokens spans) ∧
      spans.foldlM (visit grammar tokens) (reached grammar tokens budget []) =
        .ok (reached grammar tokens budget spans)) ∨
    ∃ limit before, budget = .entries limit ∧ limit < grammar.entryCount tokens spans ∧
      spans.foldlM (visit grammar tokens) (reached grammar tokens budget []) =
        .error (.overBudget limit ((reached grammar tokens budget before).overrun limit)) := by
  by_cases covers : budget.Covers (grammar.entryCount tokens spans)
  · exact Or.inl ⟨covers, visits_of_covers spans [] covers⟩
  · obtain ⟨limit, limited, exceeds⟩ := Budget.exists_limit_of_not_covers covers
    obtain ⟨before, _, _, _, _, _, ends⟩ :=
      visits_of_overrun limited spans [] (Nat.zero_le limit) exceeds
    exact Or.inr ⟨limit, before, limited, exceeds, ends⟩

/-- Steps that store the cells of some spans, each whole if the spans before it are stored, are
the visits of these spans. -/
theorem foldlM_eq_visits {Item : Type} (step : Filling → Item → Except Interruption Filling)
    (place : Item → Span) (items : List Item) (spans : List Span)
    (covers : budget.Covers (grammar.entryCount tokens spans))
    (visits : ∀ before item after, items = before ++ item :: after →
      step (reached grammar tokens budget (spans ++ before.map place)) item =
        (reached grammar tokens budget (spans ++ before.map place)).visit grammar tokens
          (place item)) :
    items.foldlM step (reached grammar tokens budget spans) =
      (items.map place).foldlM (visit grammar tokens) (reached grammar tokens budget spans) := by
  induction items generalizing spans with
  | nil => rfl
  | cons item items inductionHypothesis =>
      have first : step (reached grammar tokens budget spans) item =
          (reached grammar tokens budget spans).visit grammar tokens (place item) := by
        simpa using visits [] item items rfl
      rw [List.map_cons, List.foldlM_cons, List.foldlM_cons, first]
      rcases visit_cases (place item) covers with ⟨next, visited⟩ | ⟨_, _, _, visited⟩
      · rw [visited]
        apply inductionHypothesis (spans ++ [place item]) next
        intro before other after split
        simpa using visits (item :: before) other after (by rw [split]; rfl)
      · -- Neither fold goes on after a step that fails.
        rw [visited]
        rfl

/-- A token with names is visited. -/
theorem fillToken_eq_visit (filling : Filling) {position : Nat}
    (inBounds : position < tokens.length)
    (known : grammar.namesForToken tokens[position] ≠ []) :
    filling.fillToken grammar tokens[position] position =
      filling.visit grammar tokens (.single position) := by
  rw [visit, Grammar.entries_single inBounds]
  unfold fillToken
  split
  · next unknown => exact absurd unknown known
  · rw [Chart.collectToken_eq]

/-- Filling the cells of the first tokens visits their spans, if names expand to all of them. -/
theorem fillTokens_eq_visits (budget : Budget) {before after : List Token}
    (split : tokens = before ++ after)
    (known : ∀ token ∈ before, grammar.namesForToken token ≠ []) :
    (reached grammar tokens budget []).fillTokens grammar before =
      (Span.singles before.length).foldlM (visit grammar tokens)
        (reached grammar tokens budget []) := by
  have places : Span.singles before.length =
      before.zipIdx.map fun item => Span.single item.2 := by
    rw [Span.singles, List.range_eq_range', ← List.zipIdx_map_snd 0 before, List.map_map]
    rfl
  rw [places]
  apply foldlM_eq_visits _ _ _ _ budget.covers_zero
  rintro visited ⟨token, position⟩ later visits
  have member : (token, position) ∈ before.zipIdx := by simp [visits]
  have here : before[position]? = some token := List.mem_zipIdx_iff_getElem?.mp member
  obtain ⟨inBefore, rfl⟩ := List.getElem?_eq_some_iff.mp here
  have inBounds : position < tokens.length := by
    rw [split, List.length_append]
    omega
  have same : before[position] = tokens[position] := by
    simp only [split, List.getElem_append_left inBefore]
  simp only [same]
  apply fillToken_eq_visit _ inBounds
  rw [← same]
  exact known _ (List.getElem_mem inBefore)

/-- When the turn of a longer span comes, its halves give rise to its entries, because the sides of
its splits come before it. -/
theorem spanEntries_reached {before later : List Span} {span : Span}
    (visits : Span.all tokens.length = before ++ span :: later) (longer : span.width ≠ 1) :
    (reached grammar tokens budget before).chart.spanEntries grammar span =
      grammar.entries tokens span := by
  have within := Span.within_of_isPrefix_all ⟨span :: later, visits.symm⟩
  apply Chart.spanEntries_eq longer
  intro middle inside
  have sides := Span.sides_mem_before visits (Span.mem_splits.mp inside)
  exact ⟨holds_reached within sides.1, holds_reached within sides.2⟩

/-- A longer span is visited when its turn comes. -/
theorem fillSpan_reached {before later : List Span} {span : Span}
    (visits : Span.all tokens.length = before ++ span :: later) (longer : span.width ≠ 1) :
    (reached grammar tokens budget before).fillSpan grammar span =
      (reached grammar tokens budget before).visit grammar tokens span := by
  rw [fillSpan, visit, Chart.collectSpan_eq, spanEntries_reached visits longer]

/-- Filling the cells of the longer spans visits them. -/
theorem fillSpans_eq_visits
    (covers : budget.Covers (grammar.entryCount tokens (Span.singles tokens.length))) :
    (reached grammar tokens budget (Span.singles tokens.length)).fillSpans grammar =
      (Span.longer tokens.length).foldlM (visit grammar tokens)
        (reached grammar tokens budget (Span.singles tokens.length)) := by
  rw [fillSpans, length_reached]
  refine (foldlM_eq_visits _ id _ _ covers ?_).trans (by rw [List.map_id])
  intro before span after split
  rw [List.map_id]
  have visits : Span.all tokens.length =
      (Span.singles tokens.length ++ before) ++ span :: after := by
    rw [Span.all_eq, split, List.append_assoc]
  have member : span ∈ Span.longer tokens.length := by
    rw [split]
    exact List.mem_append_right before List.mem_cons_self
  exact fillSpan_reached visits (Span.width_ne_one_of_mem_longer member)

/-- Where names expand to every token of a sentence, filling visits every span in order. -/
theorem fill_of_known (known : ∀ token ∈ tokens, grammar.namesForToken token ≠ []) :
    fill grammar budget tokens =
      (Span.all tokens.length).foldlM (visit grammar tokens)
        (reached grammar tokens budget []) := by
  have visits := fillTokens_eq_visits budget (List.append_nil tokens).symm known
  rw [Span.all_eq, List.foldlM_append, ← visits]
  change ((reached grammar tokens budget []).fillTokens grammar tokens >>= fun filling =>
    filling.fillSpans grammar) = _
  rw [visits]
  rcases visits_cases grammar budget tokens (Span.singles tokens.length) with
    ⟨covers, ends⟩ | ⟨_, _, _, _, ends⟩
  · rw [ends]
    exact fillSpans_eq_visits covers
  · rw [ends]
    rfl

/-- At the first token that no name expands to, filling has visited the tokens before it and logs
the token. -/
theorem fill_of_unknown {before after : List Token} {token : Token}
    (split : tokens = before ++ token :: after)
    (known : ∀ token ∈ before, grammar.namesForToken token ≠ [])
    (unknown : grammar.namesForToken token = []) :
    fill grammar budget tokens =
      (Span.singles before.length).foldlM (visit grammar tokens)
          (reached grammar tokens budget []) >>= fun filling =>
        .error (.unknownToken (filling.log (.unknownToken token before.length))) := by
  rw [← fillTokens_eq_visits budget split known]
  change ((reached grammar tokens budget []).fillTokens grammar tokens >>= fun filling =>
    filling.fillSpans grammar) = _
  have steps : (reached grammar tokens budget []).fillTokens grammar tokens =
      (reached grammar tokens budget []).fillTokens grammar before >>= fun filling =>
        (.error (.unknownToken (filling.log (.unknownToken token before.length))) :
          Except Interruption Filling) := by
    simp only [fillTokens, split, List.zipIdx_append, List.zipIdx_cons, List.foldlM_append,
      List.foldlM_cons, Nat.zero_add]
    congr 1
    funext filling
    simp only [fillToken, unknown]
    rfl
  rw [steps, bind_assoc]
  rfl

end Filling

end ChartParser
