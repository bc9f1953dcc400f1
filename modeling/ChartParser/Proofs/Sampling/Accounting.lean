import ChartParser.Proofs.Sampling.Rounds

/-!
# What a draw takes from a stream

A draw that comes to an end, with a derivation or with a failure, has taken rounds of
words from its stream, and the same rounds drawn by themselves end in the same way.
Their number is bounded by the levels that are allowed. On a stream of listed words
with zeros after them every draw ends, and only listed words are ever rejected.
-/

namespace ChartParser

namespace WordSource

variable {source between next : WordSource}

/-- The source gives these words, and the other source is what is left of it. -/
def Gives (source : WordSource) (words : List UInt64) (next : WordSource) : Prop :=
  source.StartsWith words ∧ source.skip words.length = next

/-- Words are given in two goes. -/
theorem Gives.append {first second : List UInt64} (firstGiven : source.Gives first between)
    (secondGiven : between.Gives second next) : source.Gives (first ++ second) next := by
  obtain ⟨firstStarts, rfl⟩ := firstGiven
  obtain ⟨secondStarts, rfl⟩ := secondGiven
  refine ⟨(startsWith_append _ _ _).mpr ⟨firstStarts, secondStarts⟩, ?_⟩
  rw [skip_skip, List.length_append]

/-- The words of rounds are given round by round. -/
theorem startsWith_wordsOf_cons {round : Round} {later : List Round} :
    source.StartsWith (Round.wordsOf (round :: later)) ↔
      source.StartsWith round.words ∧
        (source.skip round.words.length).StartsWith (Round.wordsOf later) := by
  rw [Round.wordsOf_cons, startsWith_append]

/-- A round is given with the rounds of two draws behind it. -/
theorem Gives.cons_append {chosen : WordSource} {round : Round} {left right : List Round}
    (roundGiven : source.Gives round.words chosen)
    (leftGiven : chosen.Gives (Round.wordsOf left) between)
    (rightGiven : between.Gives (Round.wordsOf right) next) :
    source.Gives (Round.wordsOf (round :: (left ++ right))) next := by
  rw [Round.wordsOf_cons, Round.wordsOf_append]
  exact roundGiven.append (leftGiven.append rightGiven)

/-- A choice from a stream takes a round, from which the same choice is replayed. -/
theorem exists_round {count : Nat} {positive : 0 < count} {choice : Fin count}
    (chosen : source.below count positive = (some choice, next)) :
    ∃ round : Round, source.Gives round.words next ∧
      ∀ later, Round.replay (round :: later) count positive = (some choice, later) := by
  obtain ⟨round, same, starts, rfl, rest⟩ := below_eq_some_iff.mp chosen
  exact ⟨round, ⟨starts, rest⟩, Round.replay_cons same⟩

/-- A choice that is replayed from a round is made from every source that starts with the round. -/
theorem below_of_replay {rounds later : List Round} {count : Nat} {positive : 0 < count}
    {choice : Fin count} (starts : source.StartsWith (Round.wordsOf rounds))
    (chosen : Round.replay rounds count positive = (some choice, later)) :
    ∃ next, source.below count positive = (some choice, next) ∧
      next.StartsWith (Round.wordsOf later) ∧
      next.skip (Round.wordsOf later).length = source.skip (Round.wordsOf rounds).length := by
  obtain ⟨round, same, decides, rfl⟩ := Round.replay_eq_some_iff.mp chosen
  obtain ⟨roundStarts, laterStarts⟩ := startsWith_wordsOf_cons.mp starts
  refine ⟨_, below_eq_some_iff.mpr ⟨round, same, roundStarts, decides, rfl⟩, laterStarts, ?_⟩
  rw [skip_skip, Round.wordsOf_cons, List.length_append]

/-- No more words are drawn from a list than it still has, but for zeros. -/
theorem countP_ne_zero_le {words listed : List UInt64} (source : WordSource)
    (fromList : source.stream = .ofList listed) (starts : source.StartsWith words) :
    words.countP (· ≠ 0) ≤ listed.length - source.drawn := by
  induction words generalizing source with
  | nil => exact Nat.zero_le _
  | cons word words inductionHypothesis =>
      obtain ⟨here, others⟩ := starts
      have later := inductionHypothesis (source.skip 1) fromList others
      simp only [skip] at later
      by_cases zero : word = 0
      · rw [List.countP_cons_of_neg (by simpa using zero)]
        omega
      · have inList : source.drawn < listed.length := by
          by_contra beyond
          rw [fromList] at here
          simp only [WordStream.ofList, List.getElem?_eq_none (Nat.le_of_not_lt beyond),
            Option.getD_none] at here
          exact zero here.symm
        rw [List.countP_cons_of_pos (by simpa using zero)]
        omega

end WordSource

/-- No zero is among the rejected words. -/
theorem Round.length_rejected_le (rounds : List Round) :
    (rounds.flatMap rejected).length ≤ (wordsOf rounds).countP (· ≠ 0) := by
  induction rounds with
  | nil => exact Nat.le_refl 0
  | cons round later inductionHypothesis =>
      have nonzero : ∀ word ∈ round.rejected, decide (word ≠ 0) := by
        intro word member
        refine decide_eq_true ?_
        rintro rfl
        exact round.rejects 0 member (Uniform.accepts_zero round.count)
      rw [List.flatMap_cons, wordsOf_cons, words, List.length_append, List.countP_append,
        List.countP_append, List.countP_eq_length.mpr nonzero]
      omega

namespace Grammar

variable {Source : Type} {grammar : Grammar} {choose : Chooser Source} {limit levels : Nat}
  {symbol : Symbol} {source : Source} {draw : Draw Source}

/-- What is drawn depends on the source by the choices alone. Where another way to choose makes the
same choices from related sources, it draws the same. -/
theorem Drawing.follow {Other : Type} {other : Chooser Other} (Related : Source → Other → Prop)
    (follows : ∀ {source otherSource count positive choice next}, Related source otherSource →
      choose source count positive = (some choice, next) →
      ∃ otherNext, other otherSource count positive = (some choice, otherNext) ∧
        Related next otherNext)
    (drawing : grammar.Drawing choose limit levels symbol source draw)
    (answered : draw.result ≠ .error .noAcceptableWord) {otherSource : Other}
    (related : Related source otherSource) :
    ∃ otherRest, grammar.Drawing other limit levels symbol otherSource ⟨draw.result, otherRest⟩ ∧
      Related draw.source otherRest := by
  induction drawing generalizing otherSource with
  | tooDeep symbol source => exact ⟨_, .tooDeep symbol otherSource, related⟩
  | undefined source undefined => exact ⟨_, .undefined otherSource undefined, related⟩
  | unchosen => exact absurd rfl answered
  | token chosen picked =>
      obtain ⟨next, otherChosen, related⟩ := follows related chosen
      exact ⟨next, .token otherChosen picked, related⟩
  | leftFailed chosen picked _ leftHypothesis =>
      obtain ⟨next, otherChosen, related⟩ := follows related chosen
      obtain ⟨rest, leftFailed, related⟩ := leftHypothesis answered related
      exact ⟨rest, .leftFailed otherChosen picked leftFailed, related⟩
  | rightFailed chosen picked _ _ leftHypothesis rightHypothesis =>
      obtain ⟨next, otherChosen, related⟩ := follows related chosen
      obtain ⟨between, leftDrawn, related⟩ := leftHypothesis (by simp) related
      obtain ⟨rest, rightFailed, related⟩ := rightHypothesis answered related
      exact ⟨rest, .rightFailed otherChosen picked leftDrawn rightFailed, related⟩
  | pair chosen picked _ _ leftHypothesis rightHypothesis =>
      obtain ⟨next, otherChosen, related⟩ := follows related chosen
      obtain ⟨between, leftDrawn, related⟩ := leftHypothesis (by simp) related
      obtain ⟨rest, rightDrawn, related⟩ := rightHypothesis (by simp) related
      exact ⟨rest, .pair otherChosen picked leftDrawn rightDrawn, related⟩

/-- A draw from a stream takes rounds, which are used up when the same is drawn from them. -/
theorem Drawing.exists_rounds {source : WordSource} {draw : Draw WordSource}
    (drawing : grammar.Drawing WordSource.below limit levels symbol source draw)
    (answered : draw.result ≠ .error .noAcceptableWord) :
    ∃ rounds, source.Gives (Round.wordsOf rounds) draw.source ∧
      ∀ later, grammar.Drawing Round.replay limit levels symbol (rounds ++ later)
        ⟨draw.result, later⟩ := by
  induction drawing with
  | tooDeep symbol source => exact ⟨[], ⟨trivial, rfl⟩, fun later => .tooDeep symbol later⟩
  | undefined source undefined =>
      exact ⟨[], ⟨trivial, rfl⟩, fun later => .undefined later undefined⟩
  | unchosen => exact absurd rfl answered
  | token chosen picked =>
      obtain ⟨round, given, replayed⟩ := WordSource.exists_round chosen
      refine ⟨[round], ?_, fun later => .token (replayed later) picked⟩
      simpa [Round.wordsOf] using given
  | leftFailed chosen picked _ leftHypothesis =>
      obtain ⟨round, given, replayed⟩ := WordSource.exists_round chosen
      obtain ⟨rounds, leftGiven, leftFailed⟩ := leftHypothesis answered
      exact ⟨round :: rounds, given.append leftGiven,
        fun later => .leftFailed (replayed _) picked (leftFailed later)⟩
  | rightFailed chosen picked _ _ leftHypothesis rightHypothesis =>
      obtain ⟨round, given, replayed⟩ := WordSource.exists_round chosen
      obtain ⟨leftRounds, leftGiven, leftDrawn⟩ := leftHypothesis (by simp)
      obtain ⟨rightRounds, rightGiven, rightFailed⟩ := rightHypothesis answered
      refine ⟨round :: (leftRounds ++ rightRounds), ?_, fun later => ?_⟩
      · exact given.cons_append leftGiven rightGiven
      · rw [List.cons_append, List.append_assoc]
        exact .rightFailed (replayed _) picked (leftDrawn _) (rightFailed later)
  | pair chosen picked _ _ leftHypothesis rightHypothesis =>
      obtain ⟨round, given, replayed⟩ := WordSource.exists_round chosen
      obtain ⟨leftRounds, leftGiven, leftDrawn⟩ := leftHypothesis (by simp)
      obtain ⟨rightRounds, rightGiven, rightDrawn⟩ := rightHypothesis (by simp)
      refine ⟨round :: (leftRounds ++ rightRounds), ?_, fun later => ?_⟩
      · exact given.cons_append leftGiven rightGiven
      · rw [List.cons_append, List.append_assoc]
        exact .pair (replayed _) picked (leftDrawn _) (rightDrawn later)

/-- Rounds that end in a derivation or a failure do so in every stream that starts with them. -/
theorem Drawing.of_rounds {rounds : List Round} {result : Except SamplingFailure Tree}
    (drawing : grammar.Drawing Round.replay limit levels symbol rounds ⟨result, []⟩)
    (answered : result ≠ .error .noAcceptableWord) {source : WordSource}
    (starts : source.StartsWith (Round.wordsOf rounds)) :
    grammar.Drawing WordSource.below limit levels symbol source
      ⟨result, source.skip (Round.wordsOf rounds).length⟩ := by
  -- The words of the rounds that are left always come next, and are followed by the same source.
  obtain ⟨rest, drawing, _, last⟩ := drawing.follow
    (fun left (other : WordSource) => other.StartsWith (Round.wordsOf left) ∧
      other.skip (Round.wordsOf left).length = source.skip (Round.wordsOf rounds).length)
    (by
      rintro left other count positive choice later ⟨otherStarts, otherLast⟩ chosen
      obtain ⟨next, made, nextStarts, nextLast⟩ := WordSource.below_of_replay otherStarts chosen
      exact ⟨next, made, nextStarts, nextLast.trans otherLast⟩)
    answered ⟨starts, rfl⟩
  rwa [← last]

/-- Every level takes at most one round for each of its symbols, of which there are at most twice as
many as on the level above. -/
theorem Drawing.length_rounds_le {rounds : List Round} {draw : Draw (List Round)}
    (drawing : grammar.Drawing Round.replay limit levels symbol rounds draw) :
    rounds.length + 1 ≤ draw.source.length + 2 ^ levels := by
  induction drawing with
  | tooDeep symbol source => exact Nat.le_refl _
  | undefined source undefined => exact Nat.add_le_add_left Nat.one_le_two_pow _
  | unchosen chosen =>
      rw [Round.replay_eq_none chosen]
      exact Nat.add_le_add_left Nat.one_le_two_pow _
  | @token levels _ _ _ _ _ _ chosen picked =>
      have used := Round.length_of_replay chosen
      have atLeastOne := Nat.two_pow_pos levels
      dsimp only
      rw [Nat.pow_succ]
      omega
  | @leftFailed levels _ _ _ _ _ _ _ _ chosen picked _ leftHypothesis =>
      have used := Round.length_of_replay chosen
      have atLeastOne := Nat.two_pow_pos levels
      dsimp only at leftHypothesis ⊢
      rw [Nat.pow_succ]
      omega
  | rightFailed chosen picked _ _ leftHypothesis rightHypothesis =>
      have used := Round.length_of_replay chosen
      dsimp only at leftHypothesis rightHypothesis ⊢
      rw [Nat.pow_succ]
      omega
  | pair chosen picked _ _ leftHypothesis rightHypothesis =>
      have used := Round.length_of_replay chosen
      dsimp only at leftHypothesis rightHypothesis ⊢
      rw [Nat.pow_succ]
      omega

/-- A derivation takes one round for each of its rules. -/
theorem Drawing.length_rounds_eq {rounds : List Round} {draw : Draw (List Round)} {tree : Tree}
    (drawing : grammar.Drawing Round.replay limit levels symbol rounds draw)
    (isTree : draw.result = .ok tree) :
    rounds.length + 1 = draw.source.length + 2 * tree.leaves.length := by
  induction drawing generalizing tree with
  | tooDeep | undefined | unchosen | leftFailed | rightFailed => cases isTree
  | token chosen picked =>
      cases isTree
      have used := Round.length_of_replay chosen
      simp only [Tree.leaves, List.length_cons, List.length_nil]
      omega
  | pair chosen picked _ _ leftHypothesis rightHypothesis =>
      cases isTree
      have used := Round.length_of_replay chosen
      have leftUsed := leftHypothesis rfl
      have rightUsed := rightHypothesis rfl
      dsimp only at leftUsed rightUsed
      simp only [Tree.leaves, List.length_append]
      omega

/-- An alternative is one of the pairs of its symbol, or else one of the tokens, which are counted
on from the number of pairs. -/
theorem get_alternatives (grammar : Grammar) (name : Symbol)
    (choice : Fin (grammar.alternatives name).length) :
    (∃ expansion, (grammar.expansions name)[choice.val]? = some expansion ∧
      (grammar.alternatives name).get choice = .pair expansion) ∨
    ((grammar.expansions name)[choice.val]? = none ∧
      ∃ token, (grammar.tokensOf name)[choice.val - (grammar.expansions name).length]? =
          some token ∧
        (grammar.alternatives name).get choice = .token token) := by
  have here : ((grammar.expansions name).map Alternative.pair ++
      (grammar.tokensOf name).map Alternative.token)[choice.val]? =
      some ((grammar.alternatives name).get choice) :=
    List.getElem?_eq_getElem choice.isLt
  by_cases isPair : choice.val < (grammar.expansions name).length
  · rw [List.getElem?_append_left (by simpa using isPair), List.getElem?_map,
      Option.map_eq_some_iff] at here
    obtain ⟨expansion, there, same⟩ := here
    exact Or.inl ⟨expansion, there, same.symm⟩
  · rw [List.getElem?_append_right (by simpa using isPair), List.length_map, List.getElem?_map,
      Option.map_eq_some_iff] at here
    obtain ⟨token, there, same⟩ := here
    exact Or.inr ⟨List.getElem?_eq_none (Nat.le_of_not_lt isPair), token, there, same.symm⟩

/-- Whatever words come before endless zeros, a draw ends in a derivation or in a failure. It takes
no more rounds than a full binary tree of the allowed levels has nodes, one for each rule of a
derivation, and rejects no word that is not listed. What comes of the rounds does not depend on the
words behind them. A choice beyond the pairs finds a token. -/
theorem drawn_words_accounted (grammar : Grammar) (symbol : Symbol) (limit : Nat)
    (words : List UInt64) (drawn : Nat) :
    (∃ rounds result, result ≠ .error .noAcceptableWord ∧
      grammar.drawBy Round.replay symbol limit rounds = ⟨result, []⟩ ∧
      ((WordStream.ofList words).source.skip drawn).StartsWith (Round.wordsOf rounds) ∧
      (∀ source : WordSource, source.StartsWith (Round.wordsOf rounds) →
        grammar.drawFrom symbol limit source =
          ⟨result, source.skip (Round.wordsOf rounds).length⟩) ∧
      (Round.wordsOf rounds).length ≤ (words.length - drawn) + 2 ^ limit - 1 ∧
      ∀ tree, result = .ok tree → rounds.length = 2 * tree.leaves.length - 1 ∧
        (Round.wordsOf rounds).length =
          2 * tree.leaves.length - 1 + (rounds.flatMap Round.rejected).length) ∧
    ∀ name (choice : Fin (grammar.alternatives name).length),
      (grammar.expansions name)[choice.val]? = none →
      ∃ token, (grammar.tokensOf name)[choice.val - (grammar.expansions name).length]? =
          some token ∧
        (grammar.alternatives name).get choice = .token token := by
  refine ⟨?_, ?_⟩
  · have drawing := grammar.drawing_drawFrom symbol limit
      ((WordStream.ofList words).source.skip drawn)
    have answered := (drawing.ne_noAcceptableWord (WordSource.totalOn_ofList words) rfl).1
    obtain ⟨rounds, ⟨starts, _⟩, replayed⟩ := drawing.exists_rounds answered
    have alone := replayed []
    rw [List.append_nil] at alone
    have bound := alone.length_rounds_le
    have rejected := Nat.le_trans (Round.length_rejected_le rounds)
      (WordSource.countP_ne_zero_le _ rfl starts)
    have total := Round.length_wordsOf rounds
    simp only [WordStream.source, WordSource.skip, Nat.zero_add] at rejected
    simp only [List.length_nil, Nat.zero_add] at bound
    refine ⟨rounds, _, answered, alone.drawWithin_eq, starts, ?_, by omega, ?_⟩
    · intro source startsAlike
      exact (alone.of_rounds answered startsAlike).drawWithin_eq
    · intro tree isTree
      have used := alone.length_rounds_eq isTree
      simp only [List.length_nil, Nat.zero_add] at used
      omega
  · intro name choice beyond
    rcases grammar.get_alternatives name choice with ⟨expansion, here, _⟩ | ⟨_, token⟩
    · rw [beyond] at here
      cases here
    · exact token

/-- A grammar without finite derivations: its one symbol expands to two of its own, in three equal
alternatives. -/
def endless : Grammar :=
  (empty "S").registerAll [.binary "S" "S" "S", .binary "S" "S" "S", .binary "S" "S" "S"]

/-- Nothing can be derived in the endless grammar. A draw of two levels still ends, here with one
word rejected of three. -/
theorem endless_draw_ends :
    (∀ tree : Tree, ¬ tree.Licensed endless) ∧
      ∃ rounds, endless.drawBy Round.replay "S" 2 rounds = ⟨.error (.tooDeep 2), []⟩ ∧
        (WordStream.ofList [2 ^ 62]).source.StartsWith (Round.wordsOf rounds) ∧
        (Round.wordsOf rounds).length = 3 ∧ 3 ≤ (1 - 0) + 2 ^ 2 - 1 := by
  refine ⟨?_, ?_⟩
  · intro tree licensed
    induction tree with
    | leaf symbol token =>
        have none : endless.terminals = .empty := by decide +kernel
        rw [Tree.Licensed, tokensOf, none, Table.listed_empty] at licensed
        cases licensed
    | node symbol left right leftHypothesis => exact leftHypothesis licensed.2.1
  · obtain ⟨rounds, result, _, replayed, starts, draws, bound, _⟩ :=
      (drawn_words_accounted endless "S" 2 [2 ^ 62] 0).1
    have outcome := draws _ starts
    have failed : (endless.drawFrom "S" 2 ((WordStream.ofList [2 ^ 62]).source.skip 0)).result =
        .error (.tooDeep 2) := by
      decide +kernel
    have used : (endless.drawFrom "S" 2
        ((WordStream.ofList [2 ^ 62]).source.skip 0)).source.drawn = 3 := by
      decide +kernel
    rw [outcome] at failed used
    have length : (Round.wordsOf rounds).length = 3 := (Nat.zero_add _).symm.trans used
    rw [length] at bound
    obtain rfl : result = .error (.tooDeep 2) := failed
    exact ⟨rounds, replayed, starts, length, bound⟩

end Grammar

end ChartParser
