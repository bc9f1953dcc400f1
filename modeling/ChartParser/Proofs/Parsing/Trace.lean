import ChartParser.Proofs.Parsing.Limit

/-!
# What a parse logs

Every stored cell is logged with the number of trees over its tokens, in the order
of filling, and one more event says how a parse has ended. A parse that exceeds
its limit logs the longest beginning of the cells that the limit allows and nothing
after it.
-/

namespace ChartParser

/-- The span of a cell that has been stored, and the number of its entries. -/
def Event.storedCell? : Event → Option (Span × Nat)
  | filledCell span entries => some (span, entries)
  | _ => none

namespace Grammar

variable {grammar : Grammar} {budget : Budget} {tokens : List Token} {limit : Nat}

/-- The number of licensed trees over the tokens of some spans. -/
noncomputable def treeTotal (grammar : Grammar) (tokens : List Token) (spans : List Span) : Nat :=
  (spans.map (grammar.treeCount tokens)).sum

/-- Some spans, each with the number of licensed trees over its tokens. -/
noncomputable def treeCounts (grammar : Grammar) (tokens : List Token) (spans : List Span) :
    List (Span × Nat) :=
  spans.map fun span => (span, grammar.treeCount tokens span)

/-- The log of cells that have been stored with as many entries as there are trees. -/
noncomputable def cellEvents (grammar : Grammar) (tokens : List Token) (spans : List Span) :
    List Event :=
  (grammar.treeCounts tokens spans).map fun (span, count) => .filledCell span count

/-- The longest beginning of some spans over which there are no more trees than a limit allows. -/
structure LongestWithin (grammar : Grammar) (tokens : List Token) (limit : Nat)
    (spans stored : List Span) : Prop where
  begins : stored <+: spans
  fits : grammar.treeTotal tokens stored ≤ limit
  longest : ∀ longer, longer <+: spans → grammar.treeTotal tokens longer ≤ limit →
    longer <+: stored

/-- What a parse of a sentence with tokens comes to, and what it logs. All cells are stored if the
budget covers them and all tokens are known, and those before the first token that is not known if
the budget covers these. Otherwise as many are stored as the limit allows. -/
inductive ParseLog (grammar : Grammar) (budget : Budget) (tokens : List Token) :
    ParseReport → Prop where
  | completed (known : ∀ token ∈ tokens, grammar.Knows token)
      (covers : budget.Covers (grammar.treeTotal tokens (Span.all tokens.length))) :
      ParseLog grammar budget tokens
        ⟨.ok (grammar.parses tokens),
          grammar.cellEvents tokens (Span.all tokens.length) ++
            [.parsedSentence tokens.length (grammar.treeTotal tokens (Span.all tokens.length))
              (grammar.parses tokens).length]⟩
  | unknown {before : List Token} {token : Token} {after : List Token}
      (split : tokens = before ++ token :: after) (known : ∀ token ∈ before, grammar.Knows token)
      (unknown : ¬ grammar.Knows token)
      (covers : budget.Covers (grammar.treeTotal tokens (Span.singles before.length))) :
      ParseLog grammar budget tokens
        ⟨.ok [], grammar.cellEvents tokens (Span.singles before.length) ++
          [.unknownToken token before.length]⟩
  | exceeded {limit : Nat} {stored : List Span} (limited : budget = .entries limit)
      (exceeds : limit < grammar.requiredEntries tokens)
      (longest : grammar.LongestWithin tokens limit (Span.all tokens.length) stored) :
      ParseLog grammar budget tokens
        ⟨.error (.budgetExceeded limit), grammar.cellEvents tokens stored⟩

/-- More spans have the trees over all of them. -/
theorem treeTotal_append (grammar : Grammar) (tokens : List Token) (first second : List Span) :
    grammar.treeTotal tokens (first ++ second) =
      grammar.treeTotal tokens first + grammar.treeTotal tokens second := by
  simp [treeTotal]

/-- A list of spans has no fewer trees than its beginnings. -/
theorem treeTotal_le_of_isPrefix (grammar : Grammar) (tokens : List Token)
    {spans stored : List Span} (begins : stored <+: spans) :
    grammar.treeTotal tokens stored ≤ grammar.treeTotal tokens spans := by
  obtain ⟨later, rfl⟩ := begins
  rw [treeTotal_append]
  exact Nat.le_add_right _ _

/-- The longest beginning that a limit allows ends before the first span that goes over it. -/
theorem longestWithin_of_exceeds {before after : List Span} {span : Span}
    (fits : grammar.treeTotal tokens before ≤ limit)
    (exceeds : limit < grammar.treeTotal tokens (before ++ [span])) :
    grammar.LongestWithin tokens limit (before ++ span :: after) before where
  begins := List.prefix_append _ _
  fits := fits
  longest := by
    intro longer begins allowed
    have oneMore : before ++ [span] <+: before ++ span :: after :=
      ⟨after, (List.append_cons before span after).symm⟩
    rcases List.prefix_or_prefix_of_prefix begins oneMore with shorter | further
    · rcases List.prefix_concat_iff.mp shorter with rfl | within
      · exact absurd exceeds (Nat.not_lt.mpr allowed)
      · exact within
    · -- What is longer still has the trees over the span that goes over the limit.
      have more := grammar.treeTotal_le_of_isPrefix tokens further
      exact absurd (Nat.lt_of_lt_of_le exceeds more) (Nat.not_lt.mpr allowed)

/-- There is only one longest beginning that a limit allows. -/
theorem LongestWithin.unique {spans first second : List Span}
    (firstLongest : grammar.LongestWithin tokens limit spans first)
    (secondLongest : grammar.LongestWithin tokens limit spans second) : first = second := by
  have firstBegins := secondLongest.longest first firstLongest.begins firstLongest.fits
  have secondBegins := firstLongest.longest second secondLongest.begins secondLongest.fits
  exact firstBegins.eq_of_length_le secondBegins.length_le

/-- Cells have as many entries as there are trees over the tokens of their spans. -/
theorem Consistent.treeTotal_eq (consistent : grammar.Consistent) {spans : List Span}
    (within : ∀ span ∈ spans, span.Within tokens.length) :
    grammar.treeTotal tokens spans = grammar.entryCount tokens spans := by
  rw [treeTotal, entryCount]
  congr 1
  apply List.map_congr_left
  intro span member
  exact consistent.treeCount_eq (within span member)

/-- Storing the cells of some spans logs them with the number of trees over their tokens. -/
theorem Consistent.events_reached (consistent : grammar.Consistent) (budget : Budget)
    {spans : List Span} (within : ∀ span ∈ spans, span.Within tokens.length) :
    (Filling.reached grammar tokens budget spans).events.toList =
      grammar.cellEvents tokens spans := by
  rw [Filling.events_reached, cellEvents, treeCounts, List.map_map]
  apply List.map_congr_left
  intro span member
  simp only [Function.comp_apply, consistent.treeCount_eq (within span member)]

/-- The spans that a parse visits are the first of all. -/
theorem visited_isPrefix_all (grammar : Grammar) (tokens : List Token) :
    grammar.visited tokens <+: Span.all tokens.length := by
  rw [visited]
  split
  · exact List.prefix_refl _
  · exact Span.singles_isPrefix_all List.findIdx_le_length

/-- Filling that needs more entries than its limit stops before the first cell that goes over
it. -/
theorem fill_of_exceeds (exceeds : limit < grammar.demand tokens) :
    ∃ before span after, grammar.visited tokens = before ++ span :: after ∧
      grammar.entryCount tokens before ≤ limit ∧
      limit < grammar.entryCount tokens (before ++ [span]) ∧
      Filling.fill grammar (.entries limit) tokens =
        .error (.overBudget limit
          ((Filling.reached grammar tokens (.entries limit) before).overrun limit)) := by
  obtain ⟨before, span, after, visits, fits, exceedsHere, ends⟩ :=
    Filling.visits_of_overrun rfl (grammar.visited tokens) [] (Nat.zero_le limit) exceeds
  refine ⟨before, span, after, visits, fits, exceedsHere, ?_⟩
  by_cases known : ∀ token ∈ tokens, grammar.namesForToken token ≠ []
  · rw [visited, if_pos known] at ends
    rw [Filling.fill_of_known known]
    exact ends
  · obtain ⟨first, token, later, split, unknown, firstKnown, visitsFirst⟩ :=
      exists_first_unknown known
    rw [visitsFirst] at ends
    rw [Filling.fill_of_unknown split firstKnown unknown, ends]
    rfl

/-- A parse that exceeds its limit has logged as many cells as the limit allows. -/
theorem Consistent.parseLogged_of_exceeds (consistent : grammar.Consistent) (nonempty : tokens ≠ [])
    (exceeds : limit < grammar.requiredEntries tokens) :
    ∃ stored, grammar.LongestWithin tokens limit (Span.all tokens.length) stored ∧
      grammar.parseLogged (.entries limit) tokens =
        ⟨.error (.budgetExceeded limit), grammar.cellEvents tokens stored⟩ := by
  rw [← consistent.demand_eq] at exceeds
  obtain ⟨before, span, after, visits, fits, exceedsHere, ends⟩ := fill_of_exceeds exceeds
  obtain ⟨unvisited, all⟩ := grammar.visited_isPrefix_all tokens
  rw [visits, List.append_assoc, List.cons_append] at all
  have stored : before <+: Span.all tokens.length := ⟨span :: (after ++ unvisited), all⟩
  have oneMore : before ++ [span] <+: Span.all tokens.length := by
    refine ⟨after ++ unvisited, ?_⟩
    rw [List.append_assoc, List.singleton_append, all]
  refine ⟨before, ?_, ?_⟩
  · rw [← consistent.treeTotal_eq (Span.within_of_isPrefix_all stored)] at fits
    rw [← consistent.treeTotal_eq (Span.within_of_isPrefix_all oneMore)] at exceedsHere
    rw [← all]
    exact longestWithin_of_exceeds fits exceedsHere
  · rw [parseLogged, if_neg (by simpa using nonempty), ends,
      ← consistent.events_reached (.entries limit) (Span.within_of_isPrefix_all stored)]
    rfl

/-- A parse that stores every cell logs all of them and what it has found. -/
theorem Consistent.parseLogged_of_known (consistent : grammar.Consistent) (nonempty : tokens ≠ [])
    (known : ∀ token ∈ tokens, grammar.Knows token)
    (covers : budget.Covers (grammar.treeTotal tokens (Span.all tokens.length))) :
    grammar.parseLogged budget tokens =
      ⟨.ok (grammar.parses tokens),
        grammar.cellEvents tokens (Span.all tokens.length) ++
          [.parsedSentence tokens.length (grammar.treeTotal tokens (Span.all tokens.length))
            (grammar.parses tokens).length]⟩ := by
  have within := Span.within_of_isPrefix_all (List.prefix_refl (Span.all tokens.length))
  have found : ∀ token ∈ tokens, grammar.namesForToken token ≠ [] := fun token member =>
    (consistent.knows_iff token).mp (known token member)
  rw [consistent.treeTotal_eq within] at covers ⊢
  have filled : Filling.fill grammar budget tokens =
      .ok (Filling.reached grammar tokens budget (Span.all tokens.length)) := by
    rw [Filling.fill_of_known found]
    exact Filling.visits_of_covers _ [] covers
  rw [parseLogged, if_neg (by simpa using nonempty), filled, parses_eq,
    ← consistent.events_reached budget within]
  simp [grammar.treesOf_reached_all budget nonempty, Filling.log]

/-- A parse that comes to an unknown token logs the cells of the tokens before it and the token. -/
theorem Consistent.parseLogged_of_unknown (consistent : grammar.Consistent)
    {before after : List Token} {token : Token} (split : tokens = before ++ token :: after)
    (known : ∀ token ∈ before, grammar.Knows token) (unknown : ¬ grammar.Knows token)
    (covers : budget.Covers (grammar.treeTotal tokens (Span.singles before.length))) :
    grammar.parseLogged budget tokens =
      ⟨.ok [], grammar.cellEvents tokens (Span.singles before.length) ++
        [.unknownToken token before.length]⟩ := by
  have nonempty : tokens ≠ [] := by simp [split]
  have fewer : before.length ≤ tokens.length := by simp [split]
  have within := Span.within_of_isPrefix_all (Span.singles_isPrefix_all fewer)
  have found : ∀ token ∈ before, grammar.namesForToken token ≠ [] := fun token member =>
    (consistent.knows_iff token).mp (known token member)
  have absent : grammar.namesForToken token = [] := by
    rwa [consistent.knows_iff, not_not] at unknown
  rw [consistent.treeTotal_eq within] at covers
  have visits := Filling.visits_of_covers (Span.singles before.length) [] covers
  rw [parseLogged, if_neg (by simpa using nonempty), Filling.fill_of_unknown split found absent,
    visits, ← consistent.events_reached budget within]
  simp [Bind.bind, Except.bind, Filling.log]

/-- A parse has to make room for the trees over the spans that it visits. -/
theorem Consistent.requiredEntries_eq (consistent : grammar.Consistent) (tokens : List Token) :
    grammar.requiredEntries tokens = grammar.treeTotal tokens (grammar.visited tokens) := by
  have within := Span.within_of_isPrefix_all (grammar.visited_isPrefix_all tokens)
  rw [← consistent.demand_eq, demand, consistent.treeTotal_eq within]

/-- Whatever the tokens and the budget are, a parse comes to something. -/
theorem Consistent.exists_parseLog (consistent : grammar.Consistent) (nonempty : tokens ≠ [])
    (budget : Budget) : ∃ report, grammar.ParseLog budget tokens report := by
  by_cases covers : budget.Covers (grammar.requiredEntries tokens)
  · rw [consistent.requiredEntries_eq] at covers
    by_cases known : ∀ token ∈ tokens, grammar.namesForToken token ≠ []
    · rw [visited, if_pos known] at covers
      refine ⟨_, .completed (fun token member => ?_) covers⟩
      exact (consistent.knows_iff token).mpr (known token member)
    · obtain ⟨before, token, after, split, unknown, first, visits⟩ := exists_first_unknown known
      rw [visits] at covers
      refine ⟨_, .unknown split (fun other member => ?_) ?_ covers⟩
      · exact (consistent.knows_iff other).mpr (first other member)
      · exact fun knows => (consistent.knows_iff token).mp knows unknown
  · obtain ⟨limit, limited, exceeds⟩ := Budget.exists_limit_of_not_covers covers
    obtain ⟨_, longest, _⟩ := consistent.parseLogged_of_exceeds nonempty exceeds
    exact ⟨_, .exceeded limited exceeds longest⟩

/-- A parse logs nothing but what it comes to. -/
theorem ParseLog.eq_parseLogged (consistent : grammar.Consistent) (nonempty : tokens ≠ [])
    {report : ParseReport} (log : grammar.ParseLog budget tokens report) :
    grammar.parseLogged budget tokens = report := by
  cases log with
  | completed known covers => exact consistent.parseLogged_of_known nonempty known covers
  | unknown split known unknown covers =>
      exact consistent.parseLogged_of_unknown split known unknown covers
  | exceeded limited exceeds longest =>
      obtain ⟨stored, storedLongest, logged⟩ := consistent.parseLogged_of_exceeds nonempty exceeds
      rw [limited, logged, storedLongest.unique longest]

/-- The cells that are read off their log are those that have been logged. -/
theorem filterMap_cellEvents (grammar : Grammar) (tokens : List Token) (spans : List Span) :
    (grammar.cellEvents tokens spans).filterMap Event.storedCell? =
      grammar.treeCounts tokens spans := by
  rw [cellEvents, List.filterMap_map]
  exact List.filterMap_some

/-- Another event after them changes nothing about the cells. -/
theorem filterMap_cellEvents_concat (grammar : Grammar) (tokens : List Token) (spans : List Span)
    {event : Event} (other : event.storedCell? = none) :
    (grammar.cellEvents tokens spans ++ [event]).filterMap Event.storedCell? =
      grammar.treeCounts tokens spans := by
  rw [List.filterMap_append, filterMap_cellEvents, List.filterMap_cons_none other,
    List.filterMap_nil, List.append_nil]

/-- However a parse ends, the cells that it has logged are the first of all. -/
theorem ParseLog.storedCells_isPrefix {report : ParseReport}
    (log : grammar.ParseLog budget tokens report) :
    report.events.filterMap Event.storedCell? <+:
      grammar.treeCounts tokens (Span.all tokens.length) := by
  cases log with
  | completed known covers =>
      rw [filterMap_cellEvents_concat _ _ _ rfl]
  | @unknown before token after split known unknown covers =>
      have fewer : before.length ≤ tokens.length := by simp [split]
      rw [filterMap_cellEvents_concat _ _ _ rfl]
      exact (Span.singles_isPrefix_all fewer).map _
  | exceeded limited exceeds longest =>
      rw [filterMap_cellEvents]
      exact longest.begins.map _

/-- A parse of a sentence with tokens logs exactly what it comes to. The cells that it logs are the
first of those of all spans, which are in order of their widths and then from left to right. -/
theorem parse_log_exact (reachable : grammar.Reachable) (nonempty : tokens ≠ [])
    (budget : Budget) :
    (∀ report, grammar.parseLogged budget tokens = report ↔
        grammar.ParseLog budget tokens report) ∧
      (grammar.parseLogged budget tokens).events.filterMap Event.storedCell? <+:
        grammar.treeCounts tokens (Span.all tokens.length) ∧
      (∀ span, span ∈ Span.all tokens.length ↔ span.Within tokens.length) ∧
      (Span.all tokens.length).Pairwise Span.Precedes ∧
      (Span.all tokens.length).length = tokens.length * (tokens.length + 1) / 2 := by
  have consistent := reachable.consistent
  obtain ⟨report, log⟩ := consistent.exists_parseLog nonempty budget
  have logged := log.eq_parseLogged consistent nonempty
  refine ⟨?_, ?_, fun span => Span.mem_all, Span.pairwise_precedes_all _, Span.length_all _⟩
  · intro other
    constructor
    · rintro rfl
      rwa [logged]
    · exact ParseLog.eq_parseLogged consistent nonempty
  · rw [logged]
    exact log.storedCells_isPrefix

/-- Three tokens have six cells, and the last one has two of the seven entries. With a limit of six
five cells are logged and nothing after them. With a limit of seven the log goes on to its end. -/
theorem log_of_three_tokens :
    bracketing.Reachable ∧
      bracketing.ParseLog (.entries 6) ["a", "a", "a"]
        (bracketing.parseLogged (.entries 6) ["a", "a", "a"]) ∧
      (bracketing.parseLogged (.entries 6) ["a", "a", "a"]).events =
        [.filledCell ⟨0, 1⟩ 1, .filledCell ⟨1, 2⟩ 1, .filledCell ⟨2, 3⟩ 1, .filledCell ⟨0, 2⟩ 1,
          .filledCell ⟨1, 3⟩ 1] ∧
      bracketing.ParseLog (.entries 7) ["a", "a", "a"]
        (bracketing.parseLogged (.entries 7) ["a", "a", "a"]) ∧
      (bracketing.parseLogged (.entries 7) ["a", "a", "a"]).events =
        [.filledCell ⟨0, 1⟩ 1, .filledCell ⟨1, 2⟩ 1, .filledCell ⟨2, 3⟩ 1, .filledCell ⟨0, 2⟩ 1,
          .filledCell ⟨1, 3⟩ 1, .filledCell ⟨0, 3⟩ 2, .parsedSentence 3 7 2] := by
  have nonempty : (["a", "a", "a"] : List Token) ≠ [] := List.cons_ne_nil _ _
  have six := parse_log_exact reachable_bracketing nonempty (.entries 6)
  have seven := parse_log_exact reachable_bracketing nonempty (.entries 7)
  exact ⟨reachable_bracketing, (six.1 _).mp rfl, by decide +kernel, (seven.1 _).mp rfl,
    by decide +kernel⟩

end Grammar

end ChartParser
