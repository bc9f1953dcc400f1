import ChartParser.Proofs.Sampling.Reaching
import ChartParser.Sampling.Chain

/-!
# When no derivation is drawn

Drawing can fail only along a chain of symbols that is too long or ends in a symbol
without rules, and words can be found that follow such a chain to its end. Where the
chain goes to a right child, the left one is drawn first, if it has a derivation at
all.
-/

namespace ChartParser

/-- A stream of listed words has a zero after every position. -/
theorem WordStream.exists_zero_ofList (words : List UInt64) (position : Nat) :
    ∃ later, position ≤ later ∧ (ofList words).word later = 0 := by
  refine ⟨max position words.length, Nat.le_max_left _ _, ?_⟩
  simp [ofList]

/-- A search that looks at a word which is accepted finds one. -/
theorem Uniform.exists_firstAccepted {word : Nat → UInt64} {count tries position place : Nat}
    (notBefore : position ≤ place) (near : place < position + tries)
    (accepted : accepts count (word place)) :
    ∃ found, firstAccepted word count tries position = some found := by
  induction tries generalizing position with
  | zero => omega
  | succ tries inductionHypothesis =>
      rw [firstAccepted]
      split
      · exact ⟨position, rfl⟩
      · next rejected =>
          have later : position ≠ place := by
            rintro rfl
            exact rejected accepted
          exact inductionHypothesis (by omega) (by omega)

/-- A way to choose gives a choice from every source of some kind, and leaves a source of that
kind. -/
def Chooser.TotalOn {Source : Type} (choose : Chooser Source) (kind : Source → Prop) : Prop :=
  ∀ ⦃source count positive choice next⦄, kind source →
    choose source count positive = (choice, next) → choice ≠ none ∧ kind next

/-- Listed words, with zeros after them, give every choice. -/
theorem WordSource.totalOn_ofList (words : List UInt64) :
    Chooser.TotalOn WordSource.below fun source => source.stream = .ofList words := by
  rintro ⟨stream, drawn⟩ count positive choice next rfl chosen
  obtain ⟨later, notBefore, zero⟩ := WordStream.exists_zero_ofList words drawn
  obtain ⟨place, here, near, same⟩ := (WordStream.ofList words).recurs drawn later notBefore
  have accepted : Uniform.accepts count ((WordStream.ofList words).word place) := by
    rw [same, zero]
    exact Uniform.accepts_zero count
  obtain ⟨found, search⟩ := Uniform.exists_firstAccepted here near accepted
  rw [WordSource.below, search] at chosen
  cases chosen
  exact ⟨Option.some_ne_none _, rfl⟩

namespace Grammar

variable {Source : Type} {grammar : Grammar} {choose : Chooser Source} {limit levels : Nat}
  {symbol parent child : Symbol} {source : Source} {draw : Draw Source}
  {failure : SamplingFailure}

/-- Where every choice is given, nothing fails for want of one. -/
theorem Drawing.ne_noAcceptableWord {kind : Source → Prop} (total : choose.TotalOn kind)
    (drawing : grammar.Drawing choose limit levels symbol source draw) (holds : kind source) :
    draw.result ≠ .error .noAcceptableWord ∧ kind draw.source := by
  induction drawing with
  | tooDeep | undefined => exact ⟨nofun, holds⟩
  | unchosen chosen => exact absurd rfl (total holds chosen).1
  | token chosen picked => exact ⟨nofun, (total holds chosen).2⟩
  | leftFailed chosen picked _ leftHypothesis => exact leftHypothesis (total holds chosen).2
  | rightFailed chosen picked _ _ leftHypothesis rightHypothesis =>
      have leftHolds := (leftHypothesis (total holds chosen).2).2
      exact rightHypothesis leftHolds
  | pair chosen picked _ _ leftHypothesis rightHypothesis =>
      have leftHolds := (leftHypothesis (total holds chosen).2).2
      exact ⟨nofun, (rightHypothesis leftHolds).2⟩

/-- What stands in the way of a child stands in the way of its parent, one level further up. -/
theorem Obstructed.cons (inherits : grammar.HasChild parent child)
    (obstructed : grammar.Obstructed limit levels child failure) :
    grammar.Obstructed limit (levels + 1) parent failure := by
  cases obstructed with
  | undefined within chain undefined =>
      exact .undefined (Nat.succ_le_succ within) (.cons inherits chain) undefined
  | tooDeep chain => exact .tooDeep (.cons inherits chain)

/-- What stands in the way of a symbol is that it has no rules, or stands in the way of one of its
children. -/
theorem Obstructed.cases_succ
    (obstructed : grammar.Obstructed limit (levels + 1) symbol failure) :
    grammar.alternatives symbol = [] ∨
      ∃ child, grammar.HasChild symbol child ∧
        grammar.Obstructed limit levels child failure := by
  cases obstructed with
  | undefined within chain undefined =>
      cases chain with
      | single => exact Or.inl undefined
      | cons child chain =>
          exact Or.inr ⟨_, child, .undefined (Nat.le_of_succ_le_succ within) chain undefined⟩
  | tooDeep chain =>
      cases chain with
      | cons child chain => exact Or.inr ⟨_, child, .tooDeep chain⟩

/-- Both symbols of a pair that can be chosen are children. -/
theorem hasChild_of_picked {choice : Fin (grammar.alternatives symbol).length}
    {expansion : Expansion}
    (picked : (grammar.alternatives symbol).get choice = .pair expansion) :
    grammar.HasChild symbol expansion.left ∧ grammar.HasChild symbol expansion.right := by
  have registered := List.get_mem (grammar.alternatives symbol) choice
  rw [picked, pair_mem_alternatives] at registered
  exact ⟨⟨expansion, registered, Or.inl rfl⟩, ⟨expansion, registered, Or.inr rfl⟩⟩

/-- However the choices are made, drawing fails only for want of one or where a chain of symbols
stands in its way. -/
theorem Drawing.obstructed (drawing : grammar.Drawing choose limit levels symbol source draw)
    (failed : draw.result = .error failure) :
    failure = .noAcceptableWord ∨ grammar.Obstructed limit levels symbol failure := by
  induction drawing with
  | tooDeep symbol source =>
      cases failed
      exact Or.inr (.tooDeep (.single symbol))
  | @undefined levels symbol source undefined =>
      cases failed
      exact Or.inr (.undefined (Nat.le_add_left 1 levels) (.single symbol) undefined)
  | unchosen =>
      cases failed
      exact Or.inl rfl
  | token | pair => cases failed
  | leftFailed chosen picked _ leftHypothesis =>
      exact (leftHypothesis failed).imp_right (Obstructed.cons (hasChild_of_picked picked).1)
  | rightFailed chosen picked _ _ _ rightHypothesis =>
      exact (rightHypothesis failed).imp_right (Obstructed.cons (hasChild_of_picked picked).2)

/-- Where a chain stands in the way of a derivation, there are words that draw none, whatever comes
after them. -/
theorem Obstructed.exists_failing_words
    (few : ∀ name, (grammar.alternatives name).length < 2 ^ 64)
    (obstructed : grammar.Obstructed limit levels symbol failure) :
    ∃ words : List UInt64, ∀ source : WordSource, source.StartsWith words →
      ∃ failure rest, grammar.Drawing WordSource.below limit levels symbol source
        ⟨.error failure, rest⟩ := by
  induction levels generalizing symbol with
  | zero => exact ⟨[], fun source _ => ⟨_, _, .tooDeep symbol source⟩⟩
  | succ levels inductionHypothesis =>
      rcases obstructed.cases_succ with undefined | ⟨child, ⟨expansion, registered, side⟩, below⟩
      · exact ⟨[], fun source _ => ⟨_, _, .undefined source undefined⟩⟩
      · obtain ⟨word, choice, picked, chooses⟩ :=
          exists_word_of_alternative (few symbol) (pair_mem_alternatives.mpr registered)
        obtain ⟨words, fails⟩ := inductionHypothesis below
        rcases side with rfl | rfl
        · refine ⟨word :: words, ?_⟩
          rintro source ⟨first, others⟩
          obtain ⟨failure, rest, leftFailed⟩ := fails _ others
          exact ⟨failure, rest, .leftFailed (chooses source first) picked leftFailed⟩
        · by_cases derived : ∃ left : Tree, left.symbol = expansion.left ∧ left.depth ≤ levels ∧
            left.Licensed grammar
          · -- The left child is drawn before the right one is tried.
            obtain ⟨left, root, shallow, licensed⟩ := derived
            obtain ⟨leftWords, _, leftDraws⟩ := exists_words few licensed
            refine ⟨word :: (leftWords ++ words), ?_⟩
            rintro source ⟨first, others⟩
            obtain ⟨leftStarts, rightStarts⟩ := (WordSource.startsWith_append _ _ _).mp others
            have leftDrawn := drawWithin_eq_iff.mp
              (leftDraws limit levels _ shallow leftStarts)
            rw [root] at leftDrawn
            obtain ⟨failure, rest, rightFailed⟩ := fails _ rightStarts
            exact ⟨failure, rest,
              .rightFailed (chooses source first) picked leftDrawn rightFailed⟩
          · -- Whatever is drawn for the left child, it is not a derivation.
            refine ⟨[word], ?_⟩
            rintro source ⟨first, _⟩
            obtain ⟨⟨failure | left, rest⟩, leftDrawing⟩ :=
              exists_drawing grammar WordSource.below limit levels expansion.left (source.skip 1)
            · exact ⟨failure, rest, .leftFailed (chooses source first) picked leftDrawing⟩
            · exact absurd ⟨left, drawWithin_eq_ok leftDrawing.drawWithin_eq⟩ derived

/-- What can stand in the way is a chain that is too long, or one that fits and ends in a symbol
without rules. -/
theorem exists_obstructed_iff :
    (∃ failure, grammar.Obstructed limit levels symbol failure) ↔
      (∃ last, grammar.Chain (levels + 1) symbol last) ∨
        ∃ count last, count ≤ levels ∧ grammar.Chain count symbol last ∧
          grammar.alternatives last = [] := by
  constructor
  · rintro ⟨failure, obstructed⟩
    cases obstructed with
    | undefined within chain undefined => exact Or.inr ⟨_, _, within, chain, undefined⟩
    | tooDeep chain => exact Or.inl ⟨_, chain⟩
  · rintro (⟨last, chain⟩ | ⟨count, last, within, chain, undefined⟩)
    · exact ⟨_, .tooDeep chain⟩
    · exact ⟨_, .undefined within chain undefined⟩

/-- What is drawn from words is drawn in one of the ways there are. -/
theorem drawing_drawFrom (grammar : Grammar) (symbol : Symbol) (limit : Nat)
    (source : WordSource) :
    grammar.Drawing WordSource.below limit limit symbol source
      (grammar.drawFrom symbol limit source) :=
  drawWithin_eq_iff.mp rfl

/-- Derivations are drawn, whatever words come before endless zeros, where no chain stands in their
way, and only there. -/
theorem draws_iff_not_obstructed (few : ∀ name, (grammar.alternatives name).length < 2 ^ 64)
    (symbol : Symbol) (limit : Nat) :
    (∀ words : List UInt64, ∃ tree,
        (grammar.drawFrom symbol limit (WordStream.ofList words).source).result = .ok tree) ↔
      ¬ ∃ failure, grammar.Obstructed limit limit symbol failure := by
  constructor
  · rintro succeeds ⟨failure, obstructed⟩
    obtain ⟨words, fails⟩ := obstructed.exists_failing_words few
    obtain ⟨met, rest, failed⟩ := fails _ (WordSource.startsWith_ofList [] words)
    have outcome : grammar.drawFrom symbol limit (WordStream.ofList words).source =
        ⟨.error met, rest⟩ := failed.drawWithin_eq
    obtain ⟨tree, drawn⟩ := succeeds words
    rw [outcome] at drawn
    cases drawn
  · intro unobstructed words
    have drawing := grammar.drawing_drawFrom symbol limit (WordStream.ofList words).source
    cases drawn : (grammar.drawFrom symbol limit (WordStream.ofList words).source).result with
    | ok tree => exact ⟨tree, rfl⟩
    | error failure =>
        rcases drawing.obstructed drawn with rfl | obstructed
        · exact absurd drawn
            (drawing.ne_noAcceptableWord (WordSource.totalOn_ofList words) rfl).1
        · exact absurd ⟨failure, obstructed⟩ unobstructed

/-- Derivations are drawn from a symbol within a limit, whatever words come before endless zeros, if
and only if no chain from the symbol has more symbols than the limit allows, and none that fits ends
in a symbol without rules. Whatever the words are, an undefined symbol ends a chain that fits, and
a derivation that is too deep follows a chain that does not. -/
theorem draws_iff_unobstructed (few : ∀ name, (grammar.alternatives name).length < 2 ^ 64)
    (symbol : Symbol) (limit : Nat) :
    ((∀ words : List UInt64, ∃ tree,
        (grammar.drawFrom symbol limit (WordStream.ofList words).source).result = .ok tree) ↔
      (¬ ∃ last, grammar.Chain (limit + 1) symbol last) ∧
        ¬ ∃ count last, count ≤ limit ∧ grammar.Chain count symbol last ∧
          grammar.alternatives last = []) ∧
    (∀ source name,
      (grammar.drawFrom symbol limit source).result = .error (.undefinedSymbol name) →
        grammar.alternatives name = [] ∧ ∃ count ≤ limit, grammar.Chain count symbol name) ∧
    ∀ source depth,
      (grammar.drawFrom symbol limit source).result = .error (.tooDeep depth) →
        depth = limit ∧ ∃ last, grammar.Chain (limit + 1) symbol last := by
  refine ⟨?_, ?_, ?_⟩
  · rw [draws_iff_not_obstructed few, exists_obstructed_iff, not_or]
  · intro source name failed
    rcases (grammar.drawing_drawFrom symbol limit source).obstructed failed with same | obstructed
    · cases same
    · cases obstructed with
      | undefined within chain undefined => exact ⟨undefined, _, within, chain⟩
  · intro source depth failed
    rcases (grammar.drawing_drawFrom symbol limit source).obstructed failed with same | obstructed
    · cases same
    · cases obstructed with
      | tooDeep chain => exact ⟨rfl, _, chain⟩

/-- A grammar of sentences with two phrases, where the second phrase has no rules. -/
def unfinished : Grammar :=
  (empty "S").registerAll [.binary "S" "NP" "VP", .terminal "NP" "dog"]

/-- In the unfinished grammar the first phrase is always drawn. A sentence fails at the second one,
which a chain of two symbols leads to. -/
theorem unfinished_sentence_fails :
    (∀ name, (unfinished.alternatives name).length < 2 ^ 64) ∧
      (∀ words : List UInt64, ∃ tree,
        (unfinished.drawFrom "NP" 1 (WordStream.ofList words).source).result = .ok tree) ∧
      ¬ ∀ words : List UInt64, ∃ tree,
        (unfinished.drawFrom "S" 2 (WordStream.ofList words).source).result = .ok tree := by
  have few : ∀ name, (unfinished.alternatives name).length < 2 ^ 64 := by
    intro name
    have atMostTwo : (unfinished.alternatives name).length ≤ 2 :=
      length_alternatives_registerAll_le (empty "S") _ name
    omega
  have childless : ∀ child, ¬ unfinished.HasChild "NP" child := by
    rintro child ⟨expansion, registered, _⟩
    have none : unfinished.expansions "NP" = [] := by decide +kernel
    rw [none] at registered
    cases registered
  have phrase := (draws_iff_unobstructed few "NP" 1).1
  have sentence := (draws_iff_unobstructed few "S" 2).1
  refine ⟨few, phrase.mpr ⟨?_, ?_⟩, ?_⟩
  · rintro ⟨last, chain⟩
    cases chain with
    | cons child chain => exact childless _ child
  · rintro ⟨count, last, within, chain, undefined⟩
    cases chain with
    | single => exact absurd undefined (by decide +kernel)
    | cons child chain => exact childless _ child
  · intro succeeds
    have child : unfinished.HasChild "S" "VP" := ⟨⟨"NP", "VP"⟩, by decide +kernel, Or.inr rfl⟩
    exact (sentence.mp succeeds).2
      ⟨2, "VP", Nat.le_refl 2, .cons child (.single "VP"), by decide +kernel⟩

end Grammar

end ChartParser
