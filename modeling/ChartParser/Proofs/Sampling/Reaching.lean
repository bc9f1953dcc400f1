import ChartParser.Proofs.Parsing.Exactness
import ChartParser.Proofs.Sampling.Choice
import ChartParser.Proofs.Sampling.Drawing

/-!
# Every derivation can be drawn

A stream can be chosen that draws a given derivation: one word for every rule,
the root's first, then those of its left child, then those of its right child.
Together with `drawWithin_eq_ok` this says exactly which derivations are drawn.
-/

namespace ChartParser.Grammar

variable {grammar : Grammar} {symbol : Symbol}

/-- Some word chooses an alternative of a name that has not too many of them. -/
theorem exists_word_of_alternative {alternative : Alternative}
    (few : (grammar.alternatives symbol).length < 2 ^ 64)
    (registered : alternative ∈ grammar.alternatives symbol) :
    ∃ (word : UInt64) (choice : Fin (grammar.alternatives symbol).length),
      (grammar.alternatives symbol).get choice = alternative ∧
      ∀ source : WordSource, source.stream.word source.drawn = word →
        source.below (grammar.alternatives symbol).length choice.pos =
          (some choice, source.skip 1) := by
  obtain ⟨position, inBounds, here⟩ := List.getElem_of_mem registered
  obtain ⟨word, accepted, decided⟩ := Uniform.exists_word few ⟨position, inBounds⟩
  refine ⟨word, ⟨position, inBounds⟩, here, ?_⟩
  rintro source rfl
  rw [WordSource.below_of_accepts _ accepted, decided]

/-- The words that draw a derivation: one for every rule, whatever the limit, and whatever comes
after them. -/
theorem exists_words (few : ∀ name, (grammar.alternatives name).length < 2 ^ 64) {tree : Tree}
    (licensed : tree.Licensed grammar) :
    ∃ words : List UInt64, words.length + 1 = 2 * tree.leaves.length ∧
      ∀ limit levels source, tree.depth ≤ levels → source.StartsWith words →
        grammar.drawWithin WordSource.below limit levels tree.symbol source =
          ⟨.ok tree, source.skip words.length⟩ := by
  induction tree with
  | leaf symbol token =>
      obtain ⟨word, choice, picked, chooses⟩ := exists_word_of_alternative (few symbol)
        (token_mem_alternatives.mpr licensed)
      refine ⟨[word], rfl, ?_⟩
      intro limit levels source deep starts
      obtain ⟨levels, rfl⟩ := Nat.exists_eq_add_of_le' deep
      exact (Drawing.token (chooses source starts.1) picked).drawWithin_eq
  | node symbol left right leftHypothesis rightHypothesis =>
      obtain ⟨registered, leftLicensed, rightLicensed⟩ := licensed
      obtain ⟨word, choice, picked, chooses⟩ := exists_word_of_alternative (few symbol)
        (pair_mem_alternatives.mpr registered)
      obtain ⟨leftWords, leftCount, leftDraws⟩ := leftHypothesis leftLicensed
      obtain ⟨rightWords, rightCount, rightDraws⟩ := rightHypothesis rightLicensed
      refine ⟨word :: (leftWords ++ rightWords), ?_, ?_⟩
      · simp only [List.length_cons, List.length_append, Tree.leaves]
        omega
      · intro limit levels source deep starts
        simp only [Tree.depth] at deep
        obtain ⟨levels, rfl⟩ := Nat.exists_eq_add_of_le' (Nat.le_trans (Nat.le_add_right 1 _) deep)
        obtain ⟨first, others⟩ := starts
        obtain ⟨leftStarts, rightStarts⟩ := (WordSource.startsWith_append _ _ _).mp others
        have leftDrawn := leftDraws limit levels _ (by omega) leftStarts
        have rightDrawn := rightDraws limit levels _ (by omega) rightStarts
        have length : (word :: (leftWords ++ rightWords)).length =
            1 + leftWords.length + rightWords.length := by
          simp only [List.length_cons, List.length_append]
          omega
        simp only [WordSource.skip_skip] at leftDrawn rightDrawn
        rw [length]
        exact (Drawing.pair (chooses source first) picked (drawWithin_eq_iff.mp leftDrawn)
          (drawWithin_eq_iff.mp rightDrawn)).drawWithin_eq

/-- The derivations that can be drawn from a symbol within a limit are the licensed ones that start
with the symbol and keep to the limit. Each is drawn by words of its own, one for every rule, from
whatever stream starts with them, and no other word is drawn. -/
theorem drawn_by_words_iff (few : ∀ name, (grammar.alternatives name).length < 2 ^ 64)
    (symbol : Symbol) (limit : Nat) (tree : Tree) :
    (tree.symbol = symbol ∧ tree.depth ≤ limit ∧ tree.Licensed grammar) ↔
      ∃ words : List UInt64, words.length = 2 * tree.leaves.length - 1 ∧
        ∀ source : WordSource, source.StartsWith words →
          grammar.drawFrom symbol limit source = ⟨.ok tree, source.skip words.length⟩ := by
  constructor
  · rintro ⟨rfl, shallow, licensed⟩
    obtain ⟨words, count, draws⟩ := exists_words few licensed
    exact ⟨words, by omega, fun source starts => draws limit limit source shallow starts⟩
  · rintro ⟨words, _, draws⟩
    exact drawWithin_eq_ok (draws _ (WordSource.startsWith_ofList [] words))

/-- A name gets no more alternatives than rules are registered. -/
theorem length_alternatives_registerAll_le (grammar : Grammar) (registrations : List Registration)
    (name : Symbol) :
    ((grammar.registerAll registrations).alternatives name).length ≤
      (grammar.alternatives name).length + registrations.length := by
  induction registrations generalizing grammar with
  | nil => exact Nat.le_refl _
  | cons registration registrations inductionHypothesis =>
      have later := inductionHypothesis (grammar.register registration)
      rw [length_alternatives_register] at later
      rw [registerAll, List.foldl_cons, ← registerAll, List.length_cons]
      split at later <;> omega

/-- No name of the grammar of bracketings has more than two alternatives. -/
theorem length_alternatives_bracketing (name : Symbol) :
    (bracketing.alternatives name).length ≤ 2 :=
  length_alternatives_registerAll_le (empty "S") [.binary "S" "S" "S", .terminal "S" "a"] name

/-- Five words draw a bracketing of three tokens that is three levels deep. -/
theorem three_tokens_drawn :
    (∀ name, (bracketing.alternatives name).length < 2 ^ 64) ∧
      ∃ words : List UInt64, words.length = 5 ∧
        ∀ source : WordSource, source.StartsWith words →
          bracketing.drawFrom "S" 3 source =
            ⟨.ok (.node "S" (.node "S" (.leaf "S" "a") (.leaf "S" "a")) (.leaf "S" "a")),
              source.skip words.length⟩ := by
  have few : ∀ name, (bracketing.alternatives name).length < 2 ^ 64 := by
    intro name
    have atMostTwo := length_alternatives_bracketing name
    omega
  have licensed : (Tree.node "S" (.node "S" (.leaf "S" "a") (.leaf "S" "a"))
      (.leaf "S" "a")).Licensed bracketing := by
    decide +kernel
  exact ⟨few, (drawn_by_words_iff few "S" 3 _).mp ⟨rfl, by decide, licensed⟩⟩

end ChartParser.Grammar
