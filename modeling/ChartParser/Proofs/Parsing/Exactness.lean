import ChartParser.Proofs.Parsing.Outcome

/-!
# Exactness of parses

A parse without a limit lists the derivations of a sentence from the start
symbol: all of them, nothing else, and none of them twice.
-/

namespace ChartParser.Grammar

variable {grammar : Grammar}

/-- The listed derivations of a sentence are those that the rules of the grammar license. -/
theorem Consistent.mem_startDerivations (consistent : grammar.Consistent) {tokens : List Token}
    (nonempty : tokens ≠ []) (tree : Tree) :
    tree ∈ grammar.startDerivations tokens ↔ tree.Derives grammar grammar.start tokens := by
  rw [startDerivations, List.mem_filter, consistent.mem_derivations (Span.within_whole nonempty),
    Span.slice_whole, decide_eq_true_eq, Tree.Derives]
  exact and_comm

/-- The listed derivations of a sentence are distinct. -/
theorem Consistent.nodup_startDerivations (consistent : grammar.Consistent) {tokens : List Token}
    (nonempty : tokens ≠ []) : (grammar.startDerivations tokens).Nodup :=
  (consistent.nodup_derivations (Span.within_whole nonempty)).filter _

/-- Without a limit a parse has an answer, which consists of the listed derivations. -/
theorem parse_unlimited (grammar : Grammar) (tokens : List Token) :
    grammar.parse .unlimited tokens = .ok (grammar.startDerivations tokens) :=
  grammar.parse_eq .unlimited tokens

/-- The parses of a sentence are the listed derivations. -/
theorem parses_eq (grammar : Grammar) (tokens : List Token) :
    grammar.parses tokens = grammar.startDerivations tokens := by
  rw [parses, parse_unlimited]

/-- A sentence without tokens has no parses. -/
theorem parses_nil (grammar : Grammar) : grammar.parses [] = [] :=
  rfl

/-- The parses of a sentence are the trees that derive it from the start symbol. -/
theorem Consistent.mem_parses (consistent : grammar.Consistent) (tokens : List Token)
    (tree : Tree) :
    tree ∈ grammar.parses tokens ↔ tree.Derives grammar grammar.start tokens := by
  cases tokens with
  | nil =>
      rw [parses_nil]
      refine iff_of_false List.not_mem_nil ?_
      rintro ⟨_, leaves, _⟩
      exact tree.leaves_ne_nil leaves
  | cons token tokens =>
      rw [parses_eq]
      exact consistent.mem_startDerivations (List.cons_ne_nil token tokens) tree

/-- When a parse has an answer, whatever its budget, the answer holds every tree that derives the
sentence from the start symbol, and no other. -/
theorem Consistent.mem_iff_of_parse (consistent : grammar.Consistent) {budget : Budget}
    {tokens : List Token} {trees : List Tree} (parsed : grammar.parse budget tokens = .ok trees)
    (tree : Tree) : tree ∈ trees ↔ tree.Derives grammar grammar.start tokens := by
  rw [parse_eq] at parsed
  rw [Budget.eq_of_answer_ok parsed, ← parses_eq, consistent.mem_parses]

/-- The parses of a sentence are distinct. -/
theorem Consistent.nodup_parses (consistent : grammar.Consistent) (tokens : List Token) :
    (grammar.parses tokens).Nodup := by
  cases tokens with
  | nil => exact List.nodup_nil
  | cons token tokens =>
      rw [parses_eq]
      exact consistent.nodup_startDerivations (List.cons_ne_nil token tokens)

/-- Without a limit every parse has an answer: the trees that derive the sentence from the start
symbol by rules of the grammar, each of them once. -/
theorem parse_exact (reachable : grammar.Reachable) (tokens : List Token) :
    grammar.parse .unlimited tokens = .ok (grammar.parses tokens) ∧
      (grammar.parses tokens).Nodup ∧
      ∀ tree, tree ∈ grammar.parses tokens ↔ tree.Derives grammar grammar.start tokens := by
  refine ⟨by rw [parses_eq, parse_unlimited], ?_⟩
  by_cases nonempty : tokens = []
  · subst nonempty
    rw [parses_nil]
    refine ⟨List.nodup_nil, ?_⟩
    intro tree
    constructor
    · intro member
      cases member
    · rintro ⟨_, leaves, _⟩
      exact absurd leaves tree.leaves_ne_nil
  · rw [parses_eq]
    exact ⟨reachable.consistent.nodup_startDerivations nonempty,
      reachable.consistent.mem_startDerivations nonempty⟩

/-- The grammar whose derivations of a sentence are its bracketings. -/
def bracketing : Grammar :=
  (empty "S").registerAll [.binary "S" "S" "S", .terminal "S" "a"]

/-- The grammar of bracketings comes from an empty one by two registrations. -/
theorem reachable_bracketing : bracketing.Reachable :=
  ⟨"S", [.register (.binary "S" "S" "S"), .register (.terminal "S" "a")], rfl⟩

/-- Three tokens have two bracketings, and no others. -/
theorem parse_three_tokens :
    bracketing.Reachable ∧
      bracketing.parses ["a", "a", "a"] =
        [.node "S" (.leaf "S" "a") (.node "S" (.leaf "S" "a") (.leaf "S" "a")),
          .node "S" (.node "S" (.leaf "S" "a") (.leaf "S" "a")) (.leaf "S" "a")] ∧
      bracketing.parse .unlimited ["a", "a", "a"] = .ok (bracketing.parses ["a", "a", "a"]) ∧
      (bracketing.parses ["a", "a", "a"]).Nodup ∧
      ∀ tree, tree ∈ bracketing.parses ["a", "a", "a"] ↔
        tree.Derives bracketing "S" ["a", "a", "a"] :=
  ⟨reachable_bracketing, by decide +kernel, parse_exact reachable_bracketing ["a", "a", "a"]⟩

end ChartParser.Grammar
