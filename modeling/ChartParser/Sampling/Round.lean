import ChartParser.Sampling.Derivation

/-!
# Rounds of words

Every choice takes a round of words: those that are rejected, and one that decides
it. A list of rounds can be drawn from in place of a stream. It has nothing to search
for and nothing to say about the words behind it, so what is drawn from it shows which
words a derivation takes and what they are taken for.
-/

namespace ChartParser

/-- The words that are drawn for one choice out of a number of alternatives, of which only the last
one decides. -/
structure Round where
  count : Nat
  rejected : List UInt64
  decisive : UInt64
  rejects : ∀ word ∈ rejected, ¬ Uniform.accepts count word
  accepts : Uniform.accepts count decisive

namespace Round

/-- All words of the round, first to last. -/
def words (round : Round) : List UInt64 :=
  round.rejected ++ [round.decisive]

/-- A round with one more rejected word in front. -/
def afterRejected (round : Round) (word : UInt64)
    (rejected : ¬ Uniform.accepts round.count word) : Round where
  count := round.count
  rejected := word :: round.rejected
  decisive := round.decisive
  rejects := List.forall_mem_cons.mpr ⟨rejected, round.rejects⟩
  accepts := round.accepts

/-- All words of several rounds. -/
def wordsOf (rounds : List Round) : List UInt64 :=
  rounds.flatMap words

/-- Choose what the first round decides, if it is one for the count. -/
def replay : Chooser (List Round)
  | [], _, _ => (none, [])
  | round :: later, count, positive =>
      if round.count = count then
        (some (Uniform.choice count positive round.decisive), later)
      else
        (none, round :: later)

/-- The words of rounds one after the other. -/
@[simp] theorem wordsOf_append (first second : List Round) :
    wordsOf (first ++ second) = wordsOf first ++ wordsOf second := by
  simp only [wordsOf, List.flatMap_append]

/-- The words of a first round, and those of the later ones. -/
@[simp] theorem wordsOf_cons (round : Round) (later : List Round) :
    wordsOf (round :: later) = round.words ++ wordsOf later :=
  rfl

/-- Each round has one decisive word. -/
theorem length_wordsOf (rounds : List Round) :
    (wordsOf rounds).length = rounds.length + (rounds.flatMap rejected).length := by
  induction rounds with
  | nil => rfl
  | cons round later inductionHypothesis =>
      simp only [wordsOf_cons, words, List.length_append, List.length_cons, List.length_nil,
        List.flatMap_cons, inductionHypothesis]
      omega

/-- A choice is replayed from a round for its count. -/
theorem replay_cons {round : Round} {count : Nat} {positive : 0 < count}
    (same : round.count = count) (later : List Round) :
    replay (round :: later) count positive =
      (some (Uniform.choice count positive round.decisive), later) :=
  if_pos same

/-- No choice is replayed otherwise. -/
theorem replay_eq_some_iff {rounds later : List Round} {count : Nat} {positive : 0 < count}
    {choice : Fin count} :
    replay rounds count positive = (some choice, later) ↔
      ∃ round, round.count = count ∧ Uniform.choice count positive round.decisive = choice ∧
        round :: later = rounds := by
  constructor
  · intro chosen
    cases rounds with
    | nil => cases chosen
    | cons round rest =>
        rw [replay] at chosen
        split at chosen
        · next same =>
            cases chosen
            exact ⟨round, same, rfl, rfl⟩
        · cases chosen
  · rintro ⟨round, same, rfl, rfl⟩
    exact replay_cons same later

/-- Each choice uses up one round. -/
theorem length_of_replay {rounds later : List Round} {count : Nat} {positive : 0 < count}
    {choice : Fin count} (chosen : replay rounds count positive = (some choice, later)) :
    rounds.length = later.length + 1 := by
  obtain ⟨round, _, _, rfl⟩ := replay_eq_some_iff.mp chosen
  rfl

/-- Where no choice is replayed, no round is used up. -/
theorem replay_eq_none {rounds later : List Round} {count : Nat} {positive : 0 < count}
    (chosen : replay rounds count positive = (none, later)) : later = rounds := by
  cases rounds with
  | nil =>
      cases chosen
      rfl
  | cons round rest =>
      rw [replay] at chosen
      split at chosen
      · cases chosen
      · cases chosen
        rfl

end Round

end ChartParser
