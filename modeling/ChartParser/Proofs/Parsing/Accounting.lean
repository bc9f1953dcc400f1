import ChartParser.Proofs.Parsing.Cells

/-!
# Accounting for entries

Under a limit, a parse creates at most one entry too many, and only as its last
one: both loops test after every entry what storing the cell would test. Up to
the step that is given up, the cells are those of a parse without a limit.
-/

namespace ChartParser

namespace Chart

variable {chart : Chart} {limit : Nat}

/-- What has been collected without an overrun keeps to the limit. -/
theorem size_le_of_collected (limited : chart.budget = .entries limit) {entries : List Entry}
    {cell grown : Cell} (fits : chart.created + cell.size ≤ limit)
    (collected : entries.foldlM chart.collect cell = .ok grown) :
    chart.created + grown.size ≤ limit := by
  by_cases overrun : limit < chart.created + (cell.size + entries.length)
  · obtain ⟨_, ends, _⟩ := foldlM_collect_of_overrun limited entries cell fits overrun
    rw [ends] at collected
    cases collected
  · have enough := Nat.le_of_not_lt overrun
    rw [foldlM_collect_of_covers entries cell (by rw [limited]; exact enough)] at collected
    cases collected
    simpa using enough

/-- If there are more entries than the limit allows, one of them is pushed that goes over it. -/
theorem exists_push_of_overrun (limited : chart.budget = .entries limit) {entries : List Entry}
    (fits : chart.created ≤ limit) (overrun : limit < chart.created + entries.length) :
    ∃ before entry after cell, entries = before ++ entry :: after ∧
      before.foldlM chart.collect #[] = .ok cell ∧
      chart.created + (cell.push entry).size = limit + 1 := by
  obtain ⟨free, rfl⟩ := Nat.exists_eq_add_of_le fits
  have inBounds : free < entries.length := Nat.lt_of_add_lt_add_left overrun
  refine ⟨entries.take free, entries[free], entries.drop (free + 1), (entries.take free).toArray,
    ?_, ?_, ?_⟩
  · rw [← List.drop_eq_getElem_cons inBounds, List.take_append_drop]
  · rw [foldlM_collect_of_covers _ _ ?_, Array.empty_append]
    rw [limited]
    simp [Budget.Covers]
  · have taken := List.length_take_of_le (Nat.le_of_lt inBounds)
    rw [Array.size_push, List.size_toArray, taken, Nat.add_assoc]

/-- While the cell of a span is collected, an entry is pushed onto those collected before it. -/
inductive Pushes (chart : Chart) (grammar : Grammar) (tokens : List Token) :
    Span → Cell → Entry → Prop where
  | token {position : Nat} {token : Token} {before after : List Symbol} {name : Symbol}
      {cell : Cell} (here : tokens[position]? = some token)
      (names : grammar.namesForToken token = before ++ name :: after)
      (collected : chart.collectToken before position = .ok cell) :
      Pushes chart grammar tokens (.single position) cell ⟨name, .token position⟩
  | span {span : Span} {before after : List Entry} {entry : Entry} {cell : Cell}
      (entries : chart.spanEntries grammar span = before ++ entry :: after)
      (collected : before.foldlM chart.collect #[] = .ok cell) :
      Pushes chart grammar tokens span cell entry

/-- No push goes over the limit by more than one entry. -/
theorem Pushes.size_le {grammar : Grammar} {tokens : List Token} {span : Span} {cell : Cell}
    {entry : Entry} (pushes : chart.Pushes grammar tokens span cell entry)
    (limited : chart.budget = .entries limit) (fits : chart.created ≤ limit) :
    chart.created + (cell.push entry).size ≤ limit + 1 := by
  have before : chart.created + cell.size ≤ limit := by
    cases pushes with
    | token here names collected =>
        rw [collectToken_eq] at collected
        exact size_le_of_collected limited (by simpa using fits) collected
    | span entries collected => exact size_le_of_collected limited (by simpa using fits) collected
  rw [Array.size_push, ← Nat.add_assoc]
  exact Nat.succ_le_succ before

end Chart

namespace Filling

open Grammar (bracketing)

variable {grammar : Grammar} {budget : Budget} {tokens : List Token} {stored : List Span}
  {span : Span} {filling : Filling} {limit : Nat}

/-- The number of created entries is known without the chart. -/
theorem Progress.created_eq_entryCount
    (progress : Progress grammar budget tokens stored filling) :
    filling.chart.created = grammar.entryCount tokens stored := by
  rw [progress.eq_reached, created_reached]

/-- The created entries are those of the stored cells. -/
theorem Progress.created_eq_sum (progress : Progress grammar budget tokens stored filling) :
    filling.chart.created = (stored.map fun span => (filling.chart.cell span).size).sum := by
  have within := Span.within_of_isPrefix_all progress.isPrefix
  rw [progress.created_eq_entryCount, Grammar.entryCount]
  congr 1
  apply List.map_congr_left
  intro span member
  rw [progress.cell_eq (within span member), if_pos member, List.size_toArray,
    Grammar.length_entries]

/-- The chart of a limited parse knows the limit. -/
theorem Progress.limited (progress : Progress grammar (.entries limit) tokens stored filling) :
    filling.chart.budget = .entries limit := by
  rw [progress.eq_reached, budget_reached]

/-- The created entries keep to the limit. -/
theorem Progress.created_le (progress : Progress grammar (.entries limit) tokens stored filling) :
    filling.chart.created ≤ limit := by
  rw [progress.created_eq_entryCount]
  exact progress.covers

/-- Where the next cell has more entries than the limit allows, one of them is pushed that goes over
it. -/
theorem Progress.exists_push {fillNext : Filling → Except Interruption Filling}
    (progress : Progress grammar (.entries limit) tokens stored filling)
    (turn : Next grammar tokens stored span fillNext)
    (exceeds : limit < grammar.entryCount tokens (stored ++ [span])) :
    ∃ cell entry, filling.chart.Pushes grammar tokens span cell entry ∧
      filling.chart.created + (cell.push entry).size = limit + 1 := by
  rw [Grammar.entryCount_concat, ← progress.created_eq_entryCount] at exceeds
  obtain ⟨before, entry, after, cell, parts, collected, overruns⟩ :=
    Chart.exists_push_of_overrun progress.limited progress.created_le exceeds
  refine ⟨cell, entry, ?_, overruns⟩
  obtain ⟨later, visits⟩ := turn.visits
  rcases turn.eq_fill with ⟨token, here, single, rfl⟩ | ⟨longer, rfl⟩
  · obtain ⟨inBounds, rfl⟩ := List.getElem?_eq_some_iff.mp here
    rw [single, Grammar.entries_single inBounds] at parts
    obtain ⟨names, _, split, rfl, rest⟩ := List.map_eq_append_iff.mp parts
    obtain ⟨name, _, rfl, rfl, _⟩ := List.map_eq_cons_iff.mp rest
    rw [single]
    rw [← Chart.collectToken_eq] at collected
    exact .token here split collected
  · rw [← spanEntries_reached visits longer, ← progress.eq_reached] at parts
    exact .span parts collected

/-- An overrun is one entry long, in a cell that is not stored. -/
theorem Interrupted.overrun {ended : Filling}
    (interrupted : Interrupted grammar (.entries limit) tokens stored filling span
      (.overBudget limit ended)) :
    (∃ cell entry, filling.chart.Pushes grammar tokens span cell entry ∧
        filling.chart.created + (cell.push entry).size = limit + 1) ∧
      ended.chart.created = limit + 1 ∧ (span ∉ stored ∧ ended.chart.cell span = #[]) ∧
      ended.chart.cells = filling.chart.cells := by
  have progress := interrupted.progress
  rcases interrupted.unknown_or_overBudget with ⟨_, unknown⟩ | ⟨_, _, exceeds, same⟩
  · cases unknown
  · cases same
    obtain ⟨_, turn, _⟩ := interrupted
    have empty := (progress.cell_eq turn.within).trans (if_neg turn.not_mem)
    exact ⟨progress.exists_push turn exceeds, rfl, ⟨turn.not_mem, empty⟩, rfl⟩

/-- The cells that a limited parse has stored are those with which a parse without a limit ends. -/
theorem Progress.cell_eq_unlimited (progress : Progress grammar budget tokens stored filling)
    (member : span ∈ stored) :
    filling.chart.cell span = (ending grammar .unlimited tokens).chart.cell span := by
  have within := Span.within_of_isPrefix_all progress.isPrefix span member
  rw [progress.unlimited.cell_ending member, progress.unlimited.cell_eq within,
    progress.cell_eq within]

/-- Between two steps a limited parse has created the entries of its stored cells and keeps to its
limit, and no push goes over it by more than one entry. If the limit is exceeded, it is by the one
entry that has been pushed last: its cell is not stored, and the cells before it are those of a
parse without a limit. -/
theorem created_accounted (grammar : Grammar) (tokens : List Token) (limit : Nat) :
    (∀ stored filling, Progress grammar (.entries limit) tokens stored filling →
      filling.chart.created = (stored.map fun span => (filling.chart.cell span).size).sum ∧
      filling.chart.created ≤ limit ∧
      ∀ span cell entry, filling.chart.Pushes grammar tokens span cell entry →
        filling.chart.created + (cell.push entry).size ≤ limit + 1) ∧
    ∀ failure, grammar.parse (.entries limit) tokens = .error failure →
      failure = .budgetExceeded limit ∧
      ∃ stored filling span ended,
        fill grammar (.entries limit) tokens = .error (.overBudget limit ended) ∧
        Interrupted grammar (.entries limit) tokens stored filling span
          (.overBudget limit ended) ∧
        ((∃ cell entry, filling.chart.Pushes grammar tokens span cell entry ∧
            filling.chart.created + (cell.push entry).size = limit + 1) ∧
          ended.chart.created = limit + 1 ∧ (span ∉ stored ∧ ended.chart.cell span = #[]) ∧
          ended.chart.cells = filling.chart.cells) ∧
        (∃ unlimited, Progress grammar .unlimited tokens stored unlimited) ∧
        ∀ part ∈ stored, ended.chart.cell part =
          (ending grammar .unlimited tokens).chart.cell part := by
  refine ⟨?_, ?_⟩
  · intro stored filling progress
    exact ⟨progress.created_eq_sum, progress.created_le,
      fun _ _ _ pushes => pushes.size_le progress.limited progress.created_le⟩
  · intro failure exceeded
    have nonempty : tokens ≠ [] := by
      rintro rfl
      cases exceeded
    rw [Grammar.parse_of_nonempty _ nonempty] at exceeded
    rcases fill_cases grammar (.entries limit) tokens with
      ⟨final, run, _⟩ | ⟨stored, filling, span, interruption, interrupted, run⟩
    · rw [run] at exceeded
      cases exceeded
    · rcases interrupted.unknown_or_overBudget with ⟨_, rfl⟩ | ⟨_, limited, _, rfl⟩
      · rw [run] at exceeded
        cases exceeded
      · cases limited
        rw [run] at exceeded
        cases exceeded
        exact ⟨rfl, stored, filling, span, _, run, interrupted, interrupted.overrun,
          ⟨_, interrupted.progress.unlimited⟩,
          fun _ member => interrupted.progress.cell_eq_unlimited member⟩

/-- Five entries are enough for the cells of one and of two tokens out of three. The cell of all
three is given up at the first of its two entries, the sixth. -/
theorem bracketing_stops_inside_a_cell :
    bracketing.parse (.entries 5) ["a", "a", "a"] = .error (.budgetExceeded 5) ∧
      ∃ stored filling span ended cell entry,
        Progress bracketing (.entries 5) ["a", "a", "a"] stored filling ∧
        filling.chart.Pushes bracketing ["a", "a", "a"] span cell entry ∧
        filling.chart.created ≤ 5 ∧ filling.chart.created + (cell.push entry).size ≤ 6 ∧
        Interrupted bracketing (.entries 5) ["a", "a", "a"] stored filling span
          (.overBudget 5 ended) ∧
        ended.chart.created = 6 ∧ span ∉ stored ∧ ended.chart.cell span = #[] := by
  obtain ⟨between, exceeds⟩ := created_accounted bracketing ["a", "a", "a"] 5
  have exceeded : bracketing.parse (.entries 5) ["a", "a", "a"] = .error (.budgetExceeded 5) := by
    decide +kernel
  obtain ⟨_, stored, filling, span, ended, _, interrupted,
    ⟨⟨cell, entry, pushes, _⟩, created, ⟨fresh, empty⟩, _⟩, _⟩ := exceeds _ exceeded
  obtain ⟨_, fits, bounded⟩ := between stored filling interrupted.progress
  exact ⟨exceeded, stored, filling, span, ended, cell, entry, interrupted.progress, pushes, fits,
    bounded span cell entry pushes, interrupted, created, fresh, empty⟩

end Filling

end ChartParser
