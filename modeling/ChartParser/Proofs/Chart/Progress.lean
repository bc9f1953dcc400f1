import ChartParser.Proofs.Chart.Filling

/-!
# Filling step by step

The loop over the tokens and the loop over the longer spans go through one list
of spans. `Filling.Next` says which step comes after the cells of some of them
have been stored, and `Filling.Progress` which filling has been reached by then.
`fill_cases` says that filling goes through these states only, until all spans
have their cells or a step fails.
-/

namespace ChartParser

/-- What had been reached when filling ended early. -/
def Interruption.filling : Interruption → Filling
  | unknownToken filling => filling
  | overBudget _ filling => filling

namespace Span

/-- One more token has one more span. -/
theorem singles_succ (position : Nat) :
    singles (position + 1) = singles position ++ [single position] := by
  rw [singles, List.range_succ, List.map_append]
  rfl

end Span

/-- A run of steps reaches what each of its steps reaches, or ends at the first step that fails. -/
theorem foldlM_cases {Item State Failure : Type} (step : State → Item → Except Failure State)
    (Reaches : List Item → State → Prop) {state : State} (items : List Item)
    (start : Reaches [] state)
    (reach : ∀ before item after reached next, items = before ++ item :: after →
      Reaches before reached → step reached item = .ok next → Reaches (before ++ [item]) next) :
    (∃ final, items.foldlM step state = .ok final ∧ Reaches items final) ∨
      ∃ before item after reached failure, items = before ++ item :: after ∧
        Reaches before reached ∧ step reached item = .error failure ∧
        items.foldlM step state = .error failure := by
  induction items using List.reverseRecOn with
  | nil => exact Or.inl ⟨state, rfl, start⟩
  | append_singleton items last inductionHypothesis =>
      have earlier := inductionHypothesis fun before item after reached next parts =>
        reach before item (after ++ [last]) reached next
          (by rw [parts, List.append_assoc, List.cons_append])
      rw [List.foldlM_append]
      simp only [List.foldlM_cons, List.foldlM_nil, bind_pure]
      rcases earlier with ⟨final, run, reaches⟩ |
        ⟨before, item, after, reached, failure, parts, reaches, fails, run⟩
      · rw [run]
        cases stepped : step final last with
        | ok next =>
            exact Or.inl ⟨next, stepped, reach items last [] final next rfl reaches stepped⟩
        | error failure =>
            exact Or.inr ⟨items, last, [], final, failure, rfl, reaches, stepped, stepped⟩
      · rw [run]
        refine Or.inr ⟨before, item, after ++ [last], reached, failure, ?_, reaches, fails, rfl⟩
        rw [parts, List.append_assoc, List.cons_append]

namespace Filling

/-- The step that comes after the cells of some spans have been stored, with the span whose cell it
fills. -/
inductive Next (grammar : Grammar) (tokens : List Token) :
    List Span → Span → (Filling → Except Interruption Filling) → Prop where
  | token {position : Nat} {token : Token} (here : tokens[position]? = some token) :
      Next grammar tokens (Span.singles position) (.single position)
        fun filling => filling.fillToken grammar token position
  | span {earlier later : List Span} {span : Span}
      (visits : Span.longer tokens.length = earlier ++ span :: later) :
      Next grammar tokens (Span.singles tokens.length ++ earlier) span
        fun filling => filling.fillSpan grammar span

/-- The filling that steps have reached when the cells of some spans have been stored. -/
inductive Progress (grammar : Grammar) (budget : Budget) (tokens : List Token) :
    List Span → Filling → Prop where
  | start : Progress grammar budget tokens [] (start tokens.length budget)
  | step {stored : List Span} {span : Span} {filling next : Filling}
      {fillNext : Filling → Except Interruption Filling}
      (before : Progress grammar budget tokens stored filling)
      (turn : Next grammar tokens stored span fillNext) (succeeds : fillNext filling = .ok next) :
      Progress grammar budget tokens (stored ++ [span]) next

/-- After some spans the step for the next one fails. -/
inductive Interrupted (grammar : Grammar) (budget : Budget) (tokens : List Token)
    (stored : List Span) (filling : Filling) (span : Span) (interruption : Interruption) :
    Prop where
  | step {fillNext : Filling → Except Interruption Filling}
      (before : Progress grammar budget tokens stored filling)
      (turn : Next grammar tokens stored span fillNext)
      (fails : fillNext filling = .error interruption)

variable {grammar : Grammar} {budget : Budget} {tokens : List Token} {stored : List Span}
  {span : Span} {filling : Filling} {fillNext : Filling → Except Interruption Filling}

/-- The next span is the first one that has no cell yet. -/
theorem Next.visits (turn : Next grammar tokens stored span fillNext) :
    ∃ later, Span.all tokens.length = stored ++ span :: later := by
  cases turn with
  | @token position token here =>
      have inBounds : position < tokens.length := (List.getElem?_eq_some_iff.mp here).1
      have begins : Span.singles (position + 1) <+: Span.all tokens.length :=
        Span.singles_isPrefix_all inBounds
      obtain ⟨later, visits⟩ := begins
      refine ⟨later, ?_⟩
      rw [← visits, Span.singles_succ, List.append_assoc]
      rfl
  | @span earlier later span visits =>
      refine ⟨later, ?_⟩
      rw [Span.all_eq, visits, List.append_assoc]

/-- The next span has no cell yet. -/
theorem Next.not_mem (turn : Next grammar tokens stored span fillNext) : span ∉ stored := by
  obtain ⟨later, visits⟩ := turn.visits
  have once := Span.nodup_all tokens.length
  rw [visits, List.nodup_append] at once
  exact fun member => once.2.2 span member span List.mem_cons_self rfl

/-- The next span is a span of the sentence. -/
theorem Next.within (turn : Next grammar tokens stored span fillNext) :
    span.Within tokens.length := by
  obtain ⟨later, visits⟩ := turn.visits
  exact Span.mem_all.mp (by simp [visits])

/-- The step for a span depends only on whether the span has one token. -/
theorem Next.eq_fill (turn : Next grammar tokens stored span fillNext) :
    (∃ token, tokens[span.start]? = some token ∧ span = .single span.start ∧
        fillNext = fun filling => filling.fillToken grammar token span.start) ∨
      span.width ≠ 1 ∧ fillNext = fun filling => filling.fillSpan grammar span := by
  cases turn with
  | @token position token here => exact Or.inl ⟨token, here, rfl, rfl⟩
  | @span earlier later span visits =>
      have member : span ∈ Span.longer tokens.length := by simp [visits]
      exact Or.inr ⟨Span.width_ne_one_of_mem_longer member, rfl⟩

/-- There is only one next step. -/
theorem Next.unique {other : Span} {fillOther : Filling → Except Interruption Filling}
    (turn : Next grammar tokens stored span fillNext)
    (otherTurn : Next grammar tokens stored other fillOther) : fillOther = fillNext := by
  have same : other = span := by
    obtain ⟨later, visits⟩ := turn.visits
    obtain ⟨otherLater, otherVisits⟩ := otherTurn.visits
    rw [visits] at otherVisits
    exact (List.cons.inj (List.append_cancel_left otherVisits)).1.symm
  subst same
  rcases turn.eq_fill with ⟨token, here, single, rfl⟩ | ⟨longer, rfl⟩ <;>
    rcases otherTurn.eq_fill with ⟨otherToken, otherHere, otherSingle, rfl⟩ | ⟨otherLonger, rfl⟩
  · rw [Option.some.inj (here.symm.trans otherHere)]
  · exact absurd ((congrArg Span.width single).trans (Span.width_single _)) otherLonger
  · exact absurd ((congrArg Span.width otherSingle).trans (Span.width_single _)) longer
  · rfl

/-- A step visits its span, whatever the budget, or finds a token that no name expands to, whatever
has been reached. -/
theorem Next.visits_or_unknown (turn : Next grammar tokens stored span fillNext) :
    (∀ budget, fillNext (reached grammar tokens budget stored) =
        (reached grammar tokens budget stored).visit grammar tokens span) ∨
      ∃ token, ∀ filling, fillNext filling =
        .error (.unknownToken (filling.log (.unknownToken token span.start))) := by
  obtain ⟨later, visits⟩ := turn.visits
  rcases turn.eq_fill with ⟨token, here, single, rfl⟩ | ⟨longer, rfl⟩
  · by_cases known : grammar.namesForToken token = []
    · refine Or.inr ⟨token, fun filling => ?_⟩
      simp only [fillToken, known]
    · obtain ⟨inBounds, rfl⟩ := List.getElem?_eq_some_iff.mp here
      left
      intro budget
      conv_rhs => rw [single]
      exact fillToken_eq_visit _ inBounds known
  · exact Or.inl fun budget => fillSpan_reached visits longer

/-- What has been reached depends only on the spans that have been stored, and the budget covers
their entries. -/
theorem Progress.eq_reached_and_covers (progress : Progress grammar budget tokens stored filling) :
    filling = reached grammar tokens budget stored ∧
      budget.Covers (grammar.entryCount tokens stored) := by
  induction progress with
  | start => exact ⟨rfl, budget.covers_zero⟩
  | @step stored span filling next fillNext before turn succeeds inductionHypothesis =>
      obtain ⟨rfl, covers⟩ := inductionHypothesis
      rcases turn.visits_or_unknown with visit | ⟨token, unknown⟩
      · rcases visit_cases span covers with ⟨more, stores⟩ | ⟨_, _, _, overruns⟩
        · rw [visit, stores] at succeeds
          exact ⟨(Except.ok.inj succeeds).symm, more⟩
        · rw [visit, overruns] at succeeds
          cases succeeds
      · rw [unknown] at succeeds
        cases succeeds

/-- What has been reached depends only on the spans that have been stored. -/
theorem Progress.eq_reached (progress : Progress grammar budget tokens stored filling) :
    filling = reached grammar tokens budget stored :=
  progress.eq_reached_and_covers.1

/-- The budget covers the entries of the stored cells. -/
theorem Progress.covers (progress : Progress grammar budget tokens stored filling) :
    budget.Covers (grammar.entryCount tokens stored) :=
  progress.eq_reached_and_covers.2

/-- The stored spans are the first of all spans. -/
theorem Progress.isPrefix (progress : Progress grammar budget tokens stored filling) :
    stored <+: Span.all tokens.length := by
  cases progress with
  | start => exact List.nil_prefix
  | step _ turn _ =>
      obtain ⟨later, visits⟩ := turn.visits
      exact ⟨later, by rw [visits, List.append_assoc]; rfl⟩

/-- The cells of the stored spans hold their entries, and all others are empty. -/
theorem Progress.cell_eq (progress : Progress grammar budget tokens stored filling)
    (within : span.Within tokens.length) :
    filling.chart.cell span =
      if span ∈ stored then (grammar.entries tokens span).toArray else #[] := by
  rw [progress.eq_reached]
  exact cell_reached (Span.within_of_isPrefix_all progress.isPrefix) within

/-- Without a limit every step succeeds that succeeds under a limit. -/
theorem Progress.unlimited (progress : Progress grammar budget tokens stored filling) :
    Progress grammar .unlimited tokens stored (reached grammar tokens .unlimited stored) := by
  induction progress with
  | start => exact .start
  | step before turn succeeds inductionHypothesis =>
      rcases turn.visits_or_unknown with visit | ⟨token, unknown⟩
      · exact .step inductionHypothesis turn ((visit .unlimited).trans (visit_of_covers trivial))
      · rw [unknown] at succeeds
        cases succeeds

/-- The loop over the tokens goes from step to step. -/
theorem fillTokens_cases (grammar : Grammar) (budget : Budget) (tokens : List Token) :
    (∃ filling, (start tokens.length budget).fillTokens grammar tokens = .ok filling ∧
        Progress grammar budget tokens (Span.singles tokens.length) filling) ∨
      ∃ stored filling span interruption,
        Interrupted grammar budget tokens stored filling span interruption ∧
        (start tokens.length budget).fillTokens grammar tokens = .error interruption := by
  have turn : ∀ {before after : List (Token × Nat)} {token position},
      tokens.zipIdx = before ++ (token, position) :: after →
        tokens[position]? = some token ∧ position = before.length := by
    intro before after token position parts
    have found : tokens.zipIdx[before.length]? = some (token, position) := by simp [parts]
    rw [List.getElem?_zipIdx, Option.map_eq_some_iff] at found
    obtain ⟨_, here, same⟩ := found
    cases same
    rw [Nat.zero_add]
    exact ⟨here, rfl⟩
  have outcome := foldlM_cases
    (fun filling item => filling.fillToken grammar item.1 item.2)
    (fun items => Progress grammar budget tokens (Span.singles items.length))
    tokens.zipIdx .start (by
      rintro before ⟨token, position⟩ after filling next parts progress succeeds
      obtain ⟨here, rfl⟩ := turn parts
      rw [List.length_append, List.length_singleton, Span.singles_succ]
      exact .step progress (.token here) succeeds)
  rcases outcome with ⟨filling, run, progress⟩ |
    ⟨before, ⟨token, position⟩, after, filling, interruption, parts, progress, fails, run⟩
  · rw [List.length_zipIdx] at progress
    exact Or.inl ⟨filling, run, progress⟩
  · obtain ⟨here, rfl⟩ := turn parts
    exact Or.inr ⟨_, _, _, _, .step progress (.token here) fails, run⟩

/-- The loop over the longer spans goes from step to step. -/
theorem fillSpans_cases
    (tokensFilled : Progress grammar budget tokens (Span.singles tokens.length) filling) :
    (∃ final, filling.fillSpans grammar = .ok final ∧
        Progress grammar budget tokens (Span.all tokens.length) final) ∨
      ∃ stored reached span interruption,
        Interrupted grammar budget tokens stored reached span interruption ∧
        filling.fillSpans grammar = .error interruption := by
  have length : filling.chart.length = tokens.length := by
    rw [tokensFilled.eq_reached, length_reached]
  have outcome := foldlM_cases (fillSpan grammar)
    (fun spans => Progress grammar budget tokens (Span.singles tokens.length ++ spans))
    (Span.longer tokens.length) (by simpa using tokensFilled) (by
      intro before span after reached next parts progress succeeds
      rw [← List.append_assoc]
      exact .step progress (.span parts) succeeds)
  rw [fillSpans, length, Span.all_eq]
  rcases outcome with ⟨final, run, progress⟩ |
    ⟨before, span, after, reached, interruption, parts, progress, fails, run⟩
  · exact Or.inl ⟨final, run, progress⟩
  · exact Or.inr ⟨_, _, _, _, .step progress (.span parts) fails, run⟩

/-- Filling goes from step to step until all spans have their cells, or until a step fails. -/
theorem fill_cases (grammar : Grammar) (budget : Budget) (tokens : List Token) :
    (∃ filling, fill grammar budget tokens = .ok filling ∧
        Progress grammar budget tokens (Span.all tokens.length) filling) ∨
      ∃ stored filling span interruption,
        Interrupted grammar budget tokens stored filling span interruption ∧
        fill grammar budget tokens = .error interruption := by
  rcases fillTokens_cases grammar budget tokens with
    ⟨filling, run, progress⟩ | ⟨stored, filling, span, interruption, interrupted, run⟩
  · have rest : fill grammar budget tokens = filling.fillSpans grammar := by
      rw [fill, run]
      rfl
    rw [rest]
    exact fillSpans_cases progress
  · refine Or.inr ⟨stored, filling, span, interruption, interrupted, ?_⟩
    rw [fill, run]
    rfl

/-- Where filling ends, whether all spans have their cells or not. -/
def ending (grammar : Grammar) (budget : Budget) (tokens : List Token) : Filling :=
  match fill grammar budget tokens with
  | .ok filling => filling
  | .error interruption => interruption.filling

/-- What had been reached before the step that fails. -/
theorem Interrupted.progress {interruption : Interruption}
    (interrupted : Interrupted grammar budget tokens stored filling span interruption) :
    Progress grammar budget tokens stored filling := by
  obtain ⟨before, _, _⟩ := interrupted
  exact before

/-- A step that fails ends at a token that no name expands to, or at the first entry over the
limit. -/
theorem Interrupted.unknown_or_overBudget {interruption : Interruption}
    (interrupted : Interrupted grammar budget tokens stored filling span interruption) :
    (∃ token, interruption =
        .unknownToken (filling.log (.unknownToken token span.start))) ∨
      ∃ limit, budget = .entries limit ∧
        limit < grammar.entryCount tokens (stored ++ [span]) ∧
        interruption = .overBudget limit (filling.overrun limit) := by
  obtain ⟨before, turn, fails⟩ := interrupted
  have reaches := before.eq_reached
  subst reaches
  rcases turn.visits_or_unknown with visit | ⟨token, unknown⟩
  · rcases visit_cases span before.covers with ⟨_, stores⟩ | ⟨limit, limited, exceeds, overruns⟩
    · rw [visit, stores] at fails
      cases fails
    · rw [visit, overruns] at fails
      exact Or.inr ⟨limit, limited, exceeds, (Except.error.inj fails).symm⟩
  · rw [unknown] at fails
    exact Or.inl ⟨token, (Except.error.inj fails).symm⟩

/-- A step that fails leaves the chart as it was, except for the number of created entries. -/
theorem Interrupted.chart_eq {interruption : Interruption}
    (interrupted : Interrupted grammar budget tokens stored filling span interruption) :
    ∃ created, interruption.filling.chart = { filling.chart with created } := by
  rcases interrupted.unknown_or_overBudget with ⟨_, rfl⟩ | ⟨limit, _, _, rfl⟩
  · exact ⟨filling.chart.created, rfl⟩
  · exact ⟨limit + 1, rfl⟩

/-- No step comes after the one that fails. -/
theorem Interrupted.isPrefix {last : List Span} {lastFilling : Filling} {failed : Span}
    {interruption : Interruption}
    (interrupted : Interrupted grammar budget tokens last lastFilling failed interruption)
    (progress : Progress grammar budget tokens stored filling) : stored <+: last := by
  obtain ⟨lastBefore, lastTurn, fails⟩ := interrupted
  induction progress with
  | start => exact List.nil_prefix
  | @step stored span filling next fillNext before turn succeeds inductionHypothesis =>
      have goesOn : stored ≠ last := by
        rintro rfl
        rw [turn.unique lastTurn, lastBefore.eq_reached, ← before.eq_reached, succeeds] at fails
        cases fails
      have begins := (Progress.step before turn succeeds).isPrefix
      apply List.prefix_of_prefix_length_le begins lastBefore.isPrefix
      have shorter := inductionHypothesis.length_le
      have different := mt inductionHypothesis.eq_of_length goesOn
      rw [List.length_append, List.length_singleton]
      omega

/-- A cell that has been stored stays as it is until filling ends. -/
theorem Progress.cell_ending (progress : Progress grammar budget tokens stored filling)
    (member : span ∈ stored) :
    (ending grammar budget tokens).chart.cell span = filling.chart.cell span := by
  have within := Span.within_of_isPrefix_all progress.isPrefix span member
  rw [progress.cell_eq within, if_pos member, ending]
  rcases fill_cases grammar budget tokens with
    ⟨final, run, all⟩ | ⟨last, lastFilling, failed, interruption, interrupted, run⟩
  · rw [run]
    exact (all.cell_eq within).trans (if_pos (Span.mem_all.mpr within))
  · have still := (interrupted.isPrefix progress).subset member
    obtain ⟨created, left⟩ := interrupted.chart_eq
    rw [run]
    simp only [left]
    exact (interrupted.progress.cell_eq within).trans (if_pos still)

end Filling

end ChartParser
