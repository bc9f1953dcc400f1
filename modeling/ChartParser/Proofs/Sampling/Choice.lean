import ChartParser.Sampling.Uniform
import Mathlib.Data.Fintype.Order
import Mathlib.Data.UInt

/-!
# Words for every choice

`below_of_accepts` says that an accepted word decides a choice at once, and
`exists_word` that no choice below a count is out of reach: the least word whose
product with the count reaches a choice is accepted and decides it. Any words may
come one after the other in a stream, by `exists_word_eq`.
-/

namespace ChartParser

namespace Uniform

variable {count : Nat}

/-- The least word whose product with the count reaches a choice. -/
def leastWord (count choice : Nat) : UInt64 :=
  UInt64.ofNat ((choice * wordCount + (count - 1)) / count)

/-- The product of the least word with the count goes beyond the choice by less than the count. -/
theorem leastWord_mul (small : count < wordCount) (choice : Fin count) :
    ∃ excess < count,
      (leastWord count choice).toNat * count = choice * wordCount + excess := by
  have below := choice.isLt
  have inRange : (choice * wordCount + (count - 1)) / count < wordCount := by
    apply Nat.div_lt_of_lt_mul
    simp only [wordCount, UInt64.size] at small ⊢
    omega
  have division := Nat.div_add_mod (choice * wordCount + (count - 1)) count
  have remainder := Nat.mod_lt (choice * wordCount + (count - 1)) choice.pos
  refine ⟨count - 1 - (choice * wordCount + (count - 1)) % count, by omega, ?_⟩
  rw [leastWord, UInt64.toNat_ofNat_of_lt' inRange, Nat.mul_comm]
  omega

/-- Every positive count leaves the low halves below it inside the zone. -/
theorem le_zone {excess : Nat} (within : excess < count) : excess ≤ zone count := by
  have scaled : count ≤ count <<< leadingZeros count := by
    rw [Nat.shiftLeft_eq]
    exact Nat.le_mul_of_pos_right count (Nat.two_pow_pos _)
  rw [zone]
  omega

/-- Every choice below a count of 64 bits is decided by some accepted word. -/
theorem exists_word (small : count < wordCount) (target : Fin count) :
    ∃ word, accepts count word ∧ choice count target.pos word = target := by
  obtain ⟨excess, within, product⟩ := leastWord_mul small target
  have low : excess < wordCount := Nat.lt_trans within small
  refine ⟨leastWord count target, ?_, Fin.ext ?_⟩
  · rw [accepts, product, Nat.mul_add_mod_of_lt low, decide_eq_true_eq]
    exact le_zone within
  · simp only [choice, product]
    simp only [wordCount, UInt64.size] at low ⊢
    omega

end Uniform

/-- Every sequence of words is the one of some stream: there are only so many words, so each that
still comes does so within some reach. -/
theorem WordStream.exists_word_eq (word : Nat → UInt64) :
    ∃ stream : WordStream, stream.word = word := by
  have finite : Finite UInt64 := Finite.of_injective UInt64.toFin UInt64.toFin_injective
  have near : ∀ position, ∃ reach, ∀ later, position ≤ later →
      ∃ place, position ≤ place ∧ place < position + reach ∧ word place = word later := by
    intro position
    have occurrence : ∀ value, ∃ place, position ≤ place ∧
        ((∃ later, position ≤ later ∧ word later = value) → word place = value) := by
      intro value
      by_cases occurs : ∃ later, position ≤ later ∧ word later = value
      · obtain ⟨later, notBefore, here⟩ := occurs
        exact ⟨later, notBefore, fun _ => here⟩
      · exact ⟨position, Nat.le_refl _, fun found => absurd found occurs⟩
    choose place notBefore here using occurrence
    obtain ⟨last, bound⟩ := Finite.exists_le place
    refine ⟨last + 1, ?_⟩
    intro later afterwards
    have within := bound (word later)
    exact ⟨place (word later), notBefore _, by omega, here _ ⟨later, afterwards, rfl⟩⟩
  choose reach recurs using near
  exact ⟨⟨word, reach, recurs⟩, rfl⟩

namespace WordSource

/-- The source when so many more words have been drawn. -/
def skip (source : WordSource) (count : Nat) : WordSource :=
  { source with drawn := source.drawn + count }

/-- No more words leave the source as it is. -/
@[simp] theorem skip_zero (source : WordSource) : source.skip 0 = source :=
  rfl

/-- Words that are drawn in two goes add up. -/
@[simp] theorem skip_skip (source : WordSource) (first second : Nat) :
    (source.skip first).skip second = source.skip (first + second) := by
  simp only [skip, Nat.add_assoc]

/-- The words that are drawn next are the listed ones. -/
def StartsWith (source : WordSource) : List UInt64 → Prop
  | [] => True
  | word :: words => source.stream.word source.drawn = word ∧ (source.skip 1).StartsWith words

/-- Words are drawn first to last. -/
theorem startsWith_append (source : WordSource) (first second : List UInt64) :
    source.StartsWith (first ++ second) ↔
      source.StartsWith first ∧ (source.skip first.length).StartsWith second := by
  induction first generalizing source with
  | nil => simp [StartsWith]
  | cons word words inductionHypothesis =>
      simp only [List.cons_append, StartsWith, inductionHypothesis, skip_skip, List.length_cons,
        Nat.add_comm 1, and_assoc]

/-- A stream of listed words goes on with those that have not been drawn. -/
theorem startsWith_ofList (drawn rest : List UInt64) :
    ((WordStream.ofList (drawn ++ rest)).source.skip drawn.length).StartsWith rest := by
  induction rest generalizing drawn with
  | nil => trivial
  | cons word rest inductionHypothesis =>
      have later := inductionHypothesis (drawn ++ [word])
      rw [List.append_assoc, List.singleton_append, List.length_append] at later
      refine ⟨?_, later⟩
      simp [skip, WordStream.source, WordStream.ofList]

/-- An accepted word decides a choice, and nothing else is drawn. -/
theorem below_of_accepts {source : WordSource} {count : Nat} (positive : 0 < count)
    (accepted : Uniform.accepts count (source.stream.word source.drawn)) :
    source.below count positive =
      (some (Uniform.choice count positive (source.stream.word source.drawn)), source.skip 1) := by
  obtain ⟨place, notBefore, near, _⟩ :=
    source.stream.recurs source.drawn source.drawn (Nat.le_refl _)
  obtain ⟨tries, reach⟩ : ∃ tries, source.stream.reach source.drawn = tries + 1 :=
    ⟨source.stream.reach source.drawn - 1, by omega⟩
  simp [below, reach, Uniform.firstAccepted, accepted, skip]

end WordSource

end ChartParser
