import ChartParser.Sampling.Words

/-!
# Uniform choices

A choice below a count is made from the high half of the product of a word and
the count. Words whose low half lies above a zone are rejected, which leaves
every choice the same number of accepted words.
-/

namespace ChartParser

namespace Uniform

/-- The number of 64-bit words. -/
def wordCount : Nat := UInt64.size

/-- The number of zero bits in front of a positive count that is written with 64 bits. -/
def leadingZeros (count : Nat) : Nat :=
  63 - count.log2

/-- The greatest low half that is accepted. -/
def zone (count : Nat) : Nat :=
  count <<< leadingZeros count - 1

/-- Whether a word decides a choice below a count. -/
def accepts (count : Nat) (word : UInt64) : Bool :=
  word.toNat * count % wordCount ≤ zone count

/-- The choice that a word decides. -/
def choice (count : Nat) (positive : 0 < count) (word : UInt64) : Fin count where
  val := word.toNat * count / wordCount
  isLt := by
    apply Nat.div_lt_of_lt_mul
    exact Nat.mul_lt_mul_of_pos_right word.toNat_lt positive

/-- The first of so many positions whose word is accepted. -/
def firstAccepted (word : Nat → UInt64) (count : Nat) : Nat → Nat → Option Nat
  | 0, _ => none
  | tries + 1, position =>
      if accepts count (word position) then some position
      else firstAccepted word count tries (position + 1)

/-- The zero word is never rejected. -/
theorem accepts_zero (count : Nat) : accepts count 0 := by
  simp [accepts]

end Uniform

/-- Draw words until one is accepted, for a choice below a count. There is no choice if no word of
the stream will ever be accepted. -/
def WordSource.below (source : WordSource) (count : Nat) (positive : 0 < count) :
    Option (Fin count) × WordSource :=
  let reach := source.stream.reach source.drawn
  match Uniform.firstAccepted source.stream.word count reach source.drawn with
  | none => (none, source)
  | some position =>
      (some (Uniform.choice count positive (source.stream.word position)),
        { source with drawn := position + 1 })

end ChartParser
