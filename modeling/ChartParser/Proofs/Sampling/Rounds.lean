import ChartParser.Proofs.Sampling.Failing
import ChartParser.Sampling.Round

/-!
# Every choice takes a round of words

`WordSource.below_eq_some_iff` says what a choice from a stream is without saying how
far the stream is searched: the words that come next are a round for the count, and
the choice is what the round decides. So a rejected word makes no difference but that
it has been drawn, unless all later ones are rejected too.
-/

namespace ChartParser

/-- Rounds for the same count that a source starts with are the same round. -/
theorem Round.eq_of_startsWith {first second : Round} {source : WordSource}
    (counts : first.count = second.count) (firstStarts : source.StartsWith first.words)
    (secondStarts : source.StartsWith second.words) : first = second := by
  obtain ⟨count, rejected, decisive, rejects, accepts⟩ := first
  obtain ⟨_, otherRejected, otherDecisive, otherRejects, otherAccepts⟩ := second
  cases counts
  suffices rejected = otherRejected ∧ decisive = otherDecisive by
    obtain ⟨rfl, rfl⟩ := this
    rfl
  simp only [words] at firstStarts secondStarts
  -- A word that is decisive in one round cannot be rejected in the other.
  induction rejected generalizing otherRejected source with
  | nil =>
      cases otherRejected with
      | nil => exact ⟨rfl, firstStarts.1.symm.trans secondStarts.1⟩
      | cons word later =>
          obtain rfl : decisive = word := firstStarts.1.symm.trans secondStarts.1
          exact absurd accepts (otherRejects _ List.mem_cons_self)
  | cons word later inductionHypothesis =>
      cases otherRejected with
      | nil =>
          obtain rfl : otherDecisive = word := secondStarts.1.symm.trans firstStarts.1
          exact absurd otherAccepts (rejects _ List.mem_cons_self)
      | cons otherWord otherLater =>
          obtain rfl : word = otherWord := firstStarts.1.symm.trans secondStarts.1
          obtain ⟨rfl, same⟩ := inductionHypothesis
            (fun word member => rejects word (List.mem_cons_of_mem _ member)) firstStarts.2
            otherLater (fun word member => otherRejects word (List.mem_cons_of_mem _ member))
            secondStarts.2
          exact ⟨rfl, same⟩

namespace WordSource

variable {source next : WordSource} {count : Nat} {positive : 0 < count} {choice : Fin count}

/-- What a search finds ends a round. -/
theorem exists_round_of_search {tries found : Nat}
    (search : Uniform.firstAccepted source.stream.word count tries source.drawn = some found) :
    ∃ round : Round, round.count = count ∧ round.decisive = source.stream.word found ∧
      source.StartsWith round.words ∧
      source.skip round.words.length = { source with drawn := found + 1 } := by
  induction tries generalizing source with
  | zero => simp [Uniform.firstAccepted] at search
  | succ tries inductionHypothesis =>
      rw [Uniform.firstAccepted] at search
      split at search
      · next accepted =>
          cases search
          exact ⟨⟨count, [], _, List.forall_mem_nil _, accepted⟩, rfl, rfl, ⟨rfl, trivial⟩, rfl⟩
      · next rejected =>
          obtain ⟨round, rfl, decisive, starts, rest⟩ :=
            @inductionHypothesis (source.skip 1) search
          rw [skip_skip, Nat.add_comm] at rest
          exact ⟨round.afterRejected _ rejected, rfl, decisive, ⟨rfl, starts⟩, rest⟩

/-- Where a word is accepted sooner or later, a search finds one. -/
theorem exists_search {place : Nat} (notBefore : source.drawn ≤ place)
    (accepted : Uniform.accepts count (source.stream.word place)) :
    ∃ found, Uniform.firstAccepted source.stream.word count (source.stream.reach source.drawn)
      source.drawn = some found := by
  obtain ⟨other, here, near, same⟩ := source.stream.recurs source.drawn place notBefore
  exact Uniform.exists_firstAccepted here near (same ▸ accepted)

/-- A choice is made from a source exactly when a round for the count comes next, and it is what
that round decides. -/
theorem below_eq_some_iff :
    source.below count positive = (some choice, next) ↔
      ∃ round : Round, round.count = count ∧ source.StartsWith round.words ∧
        Uniform.choice count positive round.decisive = choice ∧
        source.skip round.words.length = next := by
  have found : ∀ {position}, Uniform.firstAccepted source.stream.word count
      (source.stream.reach source.drawn) source.drawn = some position →
      source.below count positive = (some (Uniform.choice count positive
        (source.stream.word position)), { source with drawn := position + 1 }) := by
    intro position search
    simp only [below, search]
  constructor
  · intro chosen
    cases search : Uniform.firstAccepted source.stream.word count
        (source.stream.reach source.drawn) source.drawn with
    | none => simp [below, search] at chosen
    | some position =>
        rw [found search] at chosen
        cases chosen
        obtain ⟨round, counts, decisive, starts, rest⟩ := exists_round_of_search search
        exact ⟨round, counts, starts, by rw [decisive], rest⟩
  · rintro ⟨round, rfl, starts, rfl, rfl⟩
    -- The decisive word comes sooner or later, so a round is found, and it is this one.
    have parts := (startsWith_append source round.rejected [round.decisive]).mp starts
    have decisiveWord : source.stream.word (source.drawn + round.rejected.length) =
        round.decisive := parts.2.1
    obtain ⟨position, search⟩ := exists_search (Nat.le_add_right _ _)
      (decisiveWord.symm ▸ round.accepts)
    obtain ⟨other, counts, decisive, otherStarts, rest⟩ := exists_round_of_search search
    obtain rfl := Round.eq_of_startsWith counts otherStarts starts
    rw [found search, decisive, rest]

end WordSource

end ChartParser
