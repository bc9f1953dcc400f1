import ChartParser.Proofs.Parsing.Exactness
import ChartParser.Proofs.Program.Prepared
import ChartParser.Proofs.Tree.Decoding
import Std.Data.String.ToNat

/-!
# A report determines its result

A report of parses begins with a bracket, and other reports do not. Behind every
tree stands a line feed; behind the last one the number of parses follows, which
begins with a digit as no tree does. So a report is read from the left, tree by
tree.
-/

namespace ChartParser

open ChartParser.Tree

/-- Every tree of the result is readable. A result without trees always is. -/
def Session.Readable (layout : Layout) : ParseResult → Prop
  | .error _ => True
  | .ok trees => ∀ tree ∈ trees, tree.Readable layout

namespace Session

instance (layout : Layout) : DecidablePred (Readable layout)
  | .error _ => inferInstanceAs (Decidable True)
  | .ok trees => inferInstanceAs (Decidable (∀ tree ∈ trees, tree.Readable layout))

variable {layout : Layout}

/-- What the separator has behind its first line feed. -/
def gap : Layout → List Char
  | .flat => []
  | .indented => ['\n']

/-- The characters of a report: every tree with a line feed behind it, and the count. -/
def reportOf (layout : Layout) (count : Nat) : List Tree → List Char
  | [] => (countLine count).toList
  | [tree] => (tree.render layout).toList ++ '\n' :: (countLine count).toList
  | tree :: next :: later =>
      (tree.render layout).toList ++
        '\n' :: (gap layout ++ reportOf layout count (next :: later))

/-- The characters of the separator. -/
theorem separator_toList (layout : Layout) : (separator layout).toList = '\n' :: gap layout := by
  cases layout <;> simp [separator, gap]

/-- A report of parses shows every tree, and counts them. -/
theorem format_cons (layout : Layout) (tree : Tree) (later : List Tree) :
    format layout (.ok (tree :: later)) =
      (separator layout).intercalate ((tree :: later).map fun tree => tree.render layout) ++ "\n" ++
        countLine (later.length + 1) :=
  rfl

/-- A report of a failure says why there is no answer. -/
theorem format_error (layout : Layout) (failure : ParseFailure) :
    format layout (.error failure) = "could not finish parsing: " ++ failure.message :=
  rfl

/-- The characters of a report of parses. -/
theorem format_cons_toList (layout : Layout) (tree : Tree) (later : List Tree) :
    (format layout (.ok (tree :: later))).toList =
      reportOf layout (later.length + 1) (tree :: later) := by
  have lines : ∀ (count : Nat) (tree : Tree) (later : List Tree),
      ((separator layout).intercalate
          ((tree :: later).map fun tree => tree.render layout)).toList ++
          '\n' :: (countLine count).toList =
        reportOf layout count (tree :: later) := by
    intro count tree later
    induction later generalizing tree with
    | nil => simp [reportOf]
    | cons next later inductionHypothesis =>
        rw [reportOf, ← inductionHypothesis next]
        simp [separator_toList]
  rw [format_cons, ← lines]
  simp

/-- The number of parses begins with a digit. -/
theorem exists_countLine_toList (count : Nat) :
    ∃ digit later, (countLine count).toList = digit :: later ∧ digit.isDigit := by
  by_cases one : count = 1
  · subst one
    exact ⟨'1', _, rfl, rfl⟩
  · cases digits : Nat.toDigits 10 count with
    | nil => exact absurd digits Nat.toDigits_ne_nil
    | cons digit later =>
        have isDigit : digit.isDigit :=
          Nat.isDigit_of_mem_toDigits (by decide) (by decide)
            (digits ▸ List.mem_cons_self : digit ∈ Nat.toDigits 10 count)
        refine ⟨digit, later ++ " parses".toList, ?_, isDigit⟩
        rw [countLine, if_neg one, String.toList_append, Nat.toString_eq_ofList_toDigits, digits,
          String.toList_ofList, List.cons_append]

/-- The number of parses is not taken for one more tree. -/
theorem countLine_ne_more (layout : Layout) (count others : Nat) (tree : Tree)
    (later : List Tree) :
    (countLine count).toList ≠ gap layout ++ reportOf layout others (tree :: later) := by
  obtain ⟨digit, rest, isCount, isDigit⟩ := exists_countLine_toList count
  obtain ⟨lines, bracket⟩ := tree.exists_render_toList layout
  intro same
  rw [isCount] at same
  cases layout with
  | flat =>
      cases later <;>
      · rw [reportOf, bracket] at same
        obtain ⟨rfl, _⟩ := List.cons.inj same
        exact absurd isDigit (by decide)
  | indented =>
      obtain ⟨rfl, _⟩ := List.cons.inj same
      exact absurd isDigit (by decide)

/-- The trees of a report can be told, one after the other. -/
theorem eq_of_reportOf {first second : Tree} {others rest : List Tree} {count otherCount : Nat}
    (readable : ∀ tree ∈ first :: rest, tree.Readable layout)
    (otherReadable : ∀ tree ∈ second :: others, tree.Readable layout)
    (same : reportOf layout count (first :: rest) = reportOf layout otherCount (second :: others)) :
    first :: rest = second :: others := by
  induction rest generalizing first second others with
  | nil =>
      rw [List.forall_mem_cons] at readable otherReadable
      cases others with
      | nil =>
          obtain ⟨rfl, _⟩ := eq_of_render_append readable.1 otherReadable.1 same
          rfl
      | cons next later =>
          obtain ⟨_, ends⟩ := eq_of_render_append readable.1 otherReadable.1 same
          exact absurd ends (countLine_ne_more layout _ _ next later)
  | cons next later inductionHypothesis =>
      rw [List.forall_mem_cons] at readable otherReadable
      cases others with
      | nil =>
          obtain ⟨_, ends⟩ := eq_of_render_append readable.1 otherReadable.1 same
          exact absurd ends.symm (countLine_ne_more layout _ _ next later)
      | cons otherNext otherLater =>
          obtain ⟨rfl, more⟩ := eq_of_render_append readable.1 otherReadable.1 same
          rw [inductionHypothesis readable.2 otherReadable.2 (List.append_cancel_left more)]

/-- A report of parses begins with a bracket. -/
theorem head?_format_cons (layout : Layout) (tree : Tree) (later : List Tree) :
    (format layout (.ok (tree :: later))).toList.head? = some '[' := by
  obtain ⟨lines, bracket⟩ := tree.exists_render_toList layout
  rw [format_cons_toList]
  cases later <;> simp [reportOf, bracket]

/-- A report without parses begins otherwise. -/
theorem head?_format_nil (layout : Layout) :
    (format layout (.ok [])).toList.head? = some 'n' := by
  change "no valid parses".toList.head? = some 'n'
  simp

/-- A report of a failure begins otherwise again. -/
theorem head?_format_error (layout : Layout) (failure : ParseFailure) :
    (format layout (.error failure)).toList.head? = some 'c' := by
  rw [format_error]
  simp

/-- A failure in words. -/
theorem message_budgetExceeded (limit : Nat) :
    (ParseFailure.budgetExceeded limit).message =
      "gave up after creating " ++ toString limit ++ " chart entries" :=
  rfl

/-- Failures in the same words are the same. -/
theorem message_injective : Function.Injective ParseFailure.message := by
  intro first second same
  obtain ⟨limit⟩ := first
  obtain ⟨otherLimit⟩ := second
  rw [message_budgetExceeded, message_budgetExceeded, String.append_left_inj,
    String.append_right_inj] at same
  rw [Nat.repr_injective same]

/-- Readable results with equal reports are equal. -/
theorem eq_of_format {first second : ParseResult} (readable : Readable layout first)
    (otherReadable : Readable layout second)
    (same : format layout first = format layout second) : first = second := by
  -- The first character of a report says what kind of result it is.
  have heads := congrArg (fun report => report.toList.head?) same
  rcases first with failure | ⟨_ | ⟨tree, later⟩⟩ <;>
    rcases second with otherFailure | ⟨_ | ⟨other, others⟩⟩ <;>
    simp only [head?_format_cons, head?_format_nil, head?_format_error, Option.some.injEq,
      Char.reduceEq] at heads
  · rw [format_error, format_error, String.append_right_inj] at same
    rw [message_injective same]
  · rfl
  · have texts := congrArg String.toList same
    rw [format_cons_toList, format_cons_toList] at texts
    rw [eq_of_reportOf readable otherReadable texts]

end Session

/-- A tree of words is readable over several lines. -/
theorem Tree.OfWords.readable {tree : Tree} (ofWords : tree.OfWords) : tree.Readable .indented := by
  have admits : ∀ {word : String}, IsWord word → ' ' ∉ word.toList ∧ '\n' ∉ word.toList :=
    fun isWord => ⟨isWord.not_mem (by decide), isWord.not_mem (by decide)⟩
  induction tree with
  | leaf symbol token => exact ⟨admits ofWords.1, (admits ofWords.2).2⟩
  | node symbol left right leftHypothesis rightHypothesis =>
      exact ⟨admits ofWords.1, leftHypothesis ofWords.2.1, rightHypothesis ofWords.2.2⟩

/-- Sentences parsed with a grammar that has been loaded have readable results. -/
theorem Program.readable_of_prepare {settings : Arguments.Settings}
    {opened : Except Fault (List Delivery)} {prepared : Prepared}
    (loads : prepare settings opened = .ok prepared) (budget : Budget) (sentence : String) :
    Session.Readable .indented
      (Session.parseSentence ⟨prepared.grammar, budget, .indented⟩ sentence).result := by
  cases parsed : prepared.grammar.parse budget (Text.words sentence) with
  | error failure =>
      rw [Session.parseSentence, ← Grammar.parse, parsed]
      trivial
  | ok trees =>
      rw [Session.parseSentence, ← Grammar.parse, parsed]
      intro tree member
      obtain ⟨_, _, licensed⟩ :=
        ((reachable_of_prepare loads).consistent.mem_iff_of_parse parsed tree).mp member
      exact ((writable_of_prepare loads).ofWords licensed).readable

namespace Session

/-- Readable results can be told by their reports, in either layout. Sentences parsed with grammars
that have been loaded can be told by their indented reports, whatever brackets the grammars hold. -/
theorem report_determines_result :
    (∀ layout first second, Readable layout first → Readable layout second →
      (format layout first = format layout second ↔ first = second)) ∧
    ∀ firstSettings firstOpened first secondSettings secondOpened second,
      Program.prepare firstSettings firstOpened = .ok first →
      Program.prepare secondSettings secondOpened = .ok second →
      ∀ firstBudget secondBudget firstSentence secondSentence,
        (report ⟨first.grammar, firstBudget, .indented⟩ firstSentence =
            report ⟨second.grammar, secondBudget, .indented⟩ secondSentence ↔
          (parseSentence ⟨first.grammar, firstBudget, .indented⟩ firstSentence).result =
            (parseSentence ⟨second.grammar, secondBudget, .indented⟩ secondSentence).result) := by
  have determined : ∀ layout first second, Readable layout first → Readable layout second →
      (format layout first = format layout second ↔ first = second) :=
    fun _ _ _ readable otherReadable =>
      ⟨eq_of_format readable otherReadable, fun same => by rw [same]⟩
  refine ⟨determined, ?_⟩
  intro firstSettings firstOpened first secondSettings secondOpened second firstLoads secondLoads
    firstBudget secondBudget firstSentence secondSentence
  exact determined .indented _ _ (Program.readable_of_prepare firstLoads firstBudget firstSentence)
    (Program.readable_of_prepare secondLoads secondBudget secondSentence)

/-- A leaf whose token looks like two derivations is shown on one line as the node over them is, but
not over several lines. In a loaded grammar with brackets, a parse can be told from the same parse
within too small a budget. -/
theorem bracketed_reports_differ :
    format .flat (.ok [.leaf "S" "[A a] [B b]"]) =
        format .flat (.ok [.node "S" (.leaf "A" "a") (.leaf "B" "b")]) ∧
      Readable .indented (.ok [.leaf "S" "[A a] [B b]"]) ∧
      Readable .indented (.ok [.node "S" (.leaf "A" "a") (.leaf "B" "b")]) ∧
      format .indented (.ok [.leaf "S" "[A a] [B b]"]) ≠
        format .indented (.ok [.node "S" (.leaf "A" "a") (.leaf "B" "b")]) ∧
      ∃ prepared, Program.prepare Program.bracketedSettings
          (.ok [.data (Text.bytes Program.bracketedText)]) = .ok prepared ∧
        report ⟨prepared.grammar, .entries 2, .indented⟩ "a b]" ≠
          report ⟨prepared.grammar, .unlimited, .indented⟩ "a b]" := by
  have leafReadable : Readable .indented (.ok [.leaf "S" "[A a] [B b]"]) := by decide
  have nodeReadable : Readable .indented (.ok [.node "S" (.leaf "A" "a") (.leaf "B" "b")]) := by
    decide
  obtain ⟨prepared, loads, rules⟩ := Program.exists_prepared_bracketed
  refine ⟨by decide +kernel, leafReadable, nodeReadable, ?_, prepared, loads, ?_⟩
  · rw [ne_eq, report_determines_result.1 _ _ _ leafReadable nodeReadable]
    decide
  · rw [ne_eq, report_determines_result.2 _ _ _ _ _ _ loads loads, rules]
    decide +kernel

end Session

end ChartParser
