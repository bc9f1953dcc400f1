import ChartParser.Parsing
import ChartParser.Proofs.Chart.Filling
import ChartParser.Proofs.Derivation.Enumeration

/-!
# The outcome of a parse

`parse_eq` gives the outcome of every parse without a chart: the derivations
from the start symbol, in the order of the enumeration, if the budget covers the
derivations of every span that is visited, and otherwise the limit.
-/

namespace ChartParser

/-- The answer to a parse that needs so many entries. -/
def Budget.answer (budget : Budget) (count : Nat) (trees : List Tree) : ParseResult :=
  match budget with
  | unlimited => .ok trees
  | entries limit => if limit < count then .error (.budgetExceeded limit) else .ok trees

/-- A budget that covers the entries lets the answer stand. -/
theorem Budget.answer_of_covers {budget : Budget} {count : Nat} (covers : budget.Covers count)
    (trees : List Tree) : budget.answer count trees = .ok trees := by
  cases budget with
  | unlimited => rfl
  | entries limit => exact if_neg (Nat.not_lt.mpr covers)

/-- An answer with trees is the one that stands without a limit. -/
theorem Budget.eq_of_answer_ok {budget : Budget} {count : Nat} {trees answer : List Tree}
    (answered : budget.answer count trees = .ok answer) : answer = trees := by
  cases budget with
  | unlimited => exact (Except.ok.inj answered).symm
  | entries limit =>
      rw [Budget.answer] at answered
      split at answered
      · cases answered
      · exact (Except.ok.inj answered).symm

namespace Chart

variable {chart : Chart} {grammar : Grammar} {tokens : List Token}

/-- The trees that are read off the cell of a span, position by position. -/
def treesAt (chart : Chart) (tokens : List Token) (span : Span) : List (Option Tree) :=
  (List.range (chart.cell span).size).map (chart.tree? tokens span)

/-- A chart that holds the entries of every span reads off the derivations of a span, position by
position. -/
theorem tree?_eq_of_holds {span : Span} (within : span.Within tokens.length)
    (holds : ∀ span : Span, span.Within tokens.length → chart.Holds grammar tokens span)
    (position : Nat) :
    chart.tree? tokens span position = (grammar.derivations tokens span)[position]? :=
  tree?_eq within (fun part _ nonempty stops =>
    holds part ⟨nonempty, Nat.le_trans stops within.2⟩) position

/-- Hence it reads a tree off every entry, and the trees of a cell are the derivations of its
span, in order. -/
theorem treesAt_eq {span : Span} (within : span.Within tokens.length)
    (holds : ∀ span : Span, span.Within tokens.length → chart.Holds grammar tokens span) :
    chart.treesAt tokens span = (grammar.derivations tokens span).map some := by
  have size : (chart.cell span).size = (grammar.derivations tokens span).length := by
    rw [← Array.length_toList, holds span within, Grammar.length_entries]
  have trees := tree?_eq_of_holds within holds
  ext position : 1
  rw [treesAt, size, List.getElem?_map, List.getElem?_map]
  by_cases inBounds : position < (grammar.derivations tokens span).length
  · rw [List.getElem?_range inBounds, List.getElem?_eq_getElem inBounds]
    simp [trees, inBounds]
  · rw [List.getElem?_eq_none (by simpa using inBounds),
      List.getElem?_eq_none (Nat.le_of_not_lt inBounds)]
    rfl

/-- The trees of a symbol that are read off a chart that holds the entries of every span are the
derivations of the sentence from that symbol, in order. -/
theorem treesOf_eq (length : chart.length = tokens.length) (nonempty : tokens ≠ [])
    (holds : ∀ span : Span, span.Within tokens.length → chart.Holds grammar tokens span)
    (symbol : Symbol) :
    chart.treesOf tokens symbol =
      (grammar.derivations tokens (.whole tokens.length)).filter fun tree =>
        tree.symbol = symbol := by
  have within := Span.within_whole nonempty
  have symbols := grammar.entries_map_symbol tokens (.whole tokens.length)
  rw [← holds _ within] at symbols
  have exchanged := congrArg (List.filterMap fun numbered : Symbol × Nat =>
    if numbered.1 = symbol then chart.tree? tokens (.whole tokens.length) numbered.2 else none)
    (zipIdx_map_symbol symbols)
  rw [List.filterMap_map, List.filterMap_map] at exchanged
  -- The entry at a position stands for the derivation at that position.
  have each : ∀ item ∈ (grammar.derivations tokens (.whole tokens.length)).zipIdx,
      (if item.1.symbol = symbol then
        chart.tree? tokens (.whole tokens.length) item.2 else none) =
      (Option.guard (fun tree : Tree => tree.symbol = symbol) ∘ Prod.fst) item := by
    rintro ⟨tree, position⟩ member
    have listed := List.mem_zipIdx_iff_getElem?.mp member
    simp only [tree?_eq_of_holds within holds, listed, Function.comp_apply, Option.guard_eq_ite,
      decide_eq_true_eq]
  rw [treesOf, length, ← List.filterMap_eq_filter]
  apply exchanged.trans
  apply (List.filterMap_congr each).trans
  rw [← List.filterMap_map, List.zipIdx_map_fst]

end Chart

namespace Grammar

variable {grammar : Grammar} {budget : Budget} {tokens : List Token}

/-- The spans whose cells a parse stores unless its budget runs out: all of them, or only the
tokens before the first one that no name expands to. -/
def visited (grammar : Grammar) (tokens : List Token) : List Span :=
  if ∀ token ∈ tokens, grammar.namesForToken token ≠ [] then
    Span.all tokens.length
  else
    Span.singles (tokens.findIdx fun token => grammar.namesForToken token = [])

/-- The number of entries that a parse needs. -/
def demand (grammar : Grammar) (tokens : List Token) : Nat :=
  grammar.entryCount tokens (grammar.visited tokens)

/-- The derivations of a sentence from the start symbol, in the order of the enumeration. -/
def startDerivations (grammar : Grammar) (tokens : List Token) : List Tree :=
  (grammar.derivations tokens (.whole tokens.length)).filter fun tree =>
    tree.symbol = grammar.start

/-- A sentence with unknown tokens splits at the first of them. -/
theorem exists_first_unknown (unknown : ¬ ∀ token ∈ tokens, grammar.namesForToken token ≠ []) :
    ∃ before token after, tokens = before ++ token :: after ∧
      grammar.namesForToken token = [] ∧
      (∀ token ∈ before, grammar.namesForToken token ≠ []) ∧
      grammar.visited tokens = Span.singles before.length := by
  obtain ⟨position, place⟩ :
      ∃ position, tokens.findIdx (fun token => grammar.namesForToken token = []) = position :=
    ⟨_, rfl⟩
  have inBounds : position < tokens.length := by
    rw [← place, List.findIdx_lt_length]
    simpa using unknown
  obtain ⟨here, known⟩ := (List.findIdx_eq inBounds).mp place
  refine ⟨tokens.take position, tokens[position], tokens.drop (position + 1), ?_,
    of_decide_eq_true here, ?_, ?_⟩
  · rw [← List.drop_eq_getElem_cons inBounds, List.take_append_drop]
  · intro token member
    obtain ⟨earlier, inTaken, rfl⟩ := List.getElem_of_mem member
    rw [List.length_take] at inTaken
    rw [List.getElem_take]
    exact of_decide_eq_false (known earlier (by omega))
  · rw [visited, if_neg unknown, place, List.length_take_of_le (Nat.le_of_lt inBounds)]

/-- A sentence with tokens has the outcome of filling its chart. -/
theorem parse_of_nonempty (budget : Budget) (nonempty : tokens ≠ []) :
    grammar.parse budget tokens =
      match Filling.fill grammar budget tokens with
      | .ok filling => .ok (filling.chart.treesOf tokens grammar.start)
      | .error (.unknownToken _) => .ok []
      | .error (.overBudget limit _) => .error (.budgetExceeded limit) := by
  rw [parse, parseLogged, if_neg (by simpa using nonempty)]
  rcases Filling.fill grammar budget tokens with (_ | _) | _ <;> rfl

/-- A chart is filled to its end only by visiting every span. -/
theorem fill_eq_ok {filling : Filling} (filled : Filling.fill grammar budget tokens = .ok filling) :
    filling = Filling.reached grammar tokens budget (Span.all tokens.length) := by
  by_cases known : ∀ token ∈ tokens, grammar.namesForToken token ≠ []
  · rw [Filling.fill_of_known known] at filled
    rcases Filling.visits_cases grammar budget tokens (Span.all tokens.length) with
      ⟨_, ends⟩ | ⟨_, _, _, _, ends⟩
    · rw [ends] at filled
      exact (Except.ok.inj filled).symm
    · rw [ends] at filled
      cases filled
  · obtain ⟨before, token, after, split, unknown, first, _⟩ := exists_first_unknown known
    rw [Filling.fill_of_unknown split first unknown] at filled
    rcases Filling.visits_cases grammar budget tokens (Span.singles before.length) with
      ⟨_, ends⟩ | ⟨_, _, _, _, ends⟩ <;>
    · rw [ends] at filled
      cases filled

/-- The trees of the start symbol that are read off a chart that has been filled to its end are the
derivations of the sentence. -/
theorem treesOf_reached_all (grammar : Grammar) (budget : Budget) (nonempty : tokens ≠ []) :
    (Filling.reached grammar tokens budget (Span.all tokens.length)).chart.treesOf tokens
      grammar.start = grammar.startDerivations tokens := by
  have within : ∀ span ∈ Span.all tokens.length, span.Within tokens.length :=
    fun span member => Span.mem_all.mp member
  refine Chart.treesOf_eq (Filling.length_reached _) nonempty ?_ grammar.start
  intro span inSentence
  exact Filling.holds_reached within (Span.mem_all.mpr inSentence)

/-- Where names expand to every token, a parse visits every span. -/
theorem parse_of_known (budget : Budget) (nonempty : tokens ≠ [])
    (known : ∀ token ∈ tokens, grammar.namesForToken token ≠ []) :
    grammar.parse budget tokens =
      budget.answer (grammar.demand tokens) (grammar.startDerivations tokens) := by
  rw [parse_of_nonempty budget nonempty, Filling.fill_of_known known, demand, visited,
    if_pos known]
  rcases Filling.visits_cases grammar budget tokens (Span.all tokens.length) with
    ⟨covers, ends⟩ | ⟨limit, _, rfl, exceeds, ends⟩
  · rw [ends, Budget.answer_of_covers covers]
    exact congrArg Except.ok (grammar.treesOf_reached_all budget nonempty)
  · rw [ends]
    exact (if_pos exceeds).symm

/-- At a token that no name expands to, a parse ends without parses, unless the tokens before it
have run out of budget. -/
theorem parse_of_unknown (budget : Budget)
    (unknown : ¬ ∀ token ∈ tokens, grammar.namesForToken token ≠ []) :
    grammar.parse budget tokens =
      budget.answer (grammar.demand tokens) (grammar.startDerivations tokens) := by
  obtain ⟨before, token, after, split, absent, first, visits⟩ := exists_first_unknown unknown
  have member : token ∈ tokens := by simp [split]
  rw [parse_of_nonempty budget (List.ne_nil_of_mem member),
    Filling.fill_of_unknown split first absent, demand, visits, startDerivations,
    derivations_of_unknown member absent]
  rcases Filling.visits_cases grammar budget tokens (Span.singles before.length) with
    ⟨covers, ends⟩ | ⟨limit, _, rfl, exceeds, ends⟩
  · rw [ends, Budget.answer_of_covers covers]
    rfl
  · rw [ends]
    exact (if_pos exceeds).symm

/-- Every parse answers with the derivations of the sentence from the start symbol, in the order
of the enumeration, if its budget covers the entries that it needs, and with the limit if not. -/
theorem parse_eq (grammar : Grammar) (budget : Budget) (tokens : List Token) :
    grammar.parse budget tokens =
      budget.answer (grammar.demand tokens) (grammar.startDerivations tokens) := by
  by_cases known : ∀ token ∈ tokens, grammar.namesForToken token ≠ []
  · cases tokens with
    | nil =>
        -- Nothing is visited, and the span without tokens has no split.
        have nothing : grammar.demand [] = 0 := by simp [demand, visited, Span.all, entryCount]
        have noTrees : grammar.derivations [] (.whole 0) = [] := by
          rw [derivations_of_longer (by decide)]
          rfl
        rw [nothing, startDerivations, List.length_nil, noTrees]
        cases budget <;> rfl
    | cons token tokens => exact parse_of_known budget (List.cons_ne_nil token tokens) known
  · exact parse_of_unknown budget known

end Grammar

end ChartParser
