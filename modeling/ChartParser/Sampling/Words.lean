/-!
# Streams of words

Random choices are made from an endless stream of 64-bit words. A stream also
says how far one has to look, from any position, to see every word that is
still to come. A search for a word of some kind that finds none within that
reach would never find one.
-/

namespace ChartParser

/-- An endless stream of 64-bit words. Every word that comes after a position also stands within its
reach. -/
structure WordStream where
  word : Nat → UInt64
  reach : Nat → Nat
  recurs : ∀ position later, position ≤ later →
    ∃ place, position ≤ place ∧ place < position + reach position ∧ word place = word later

namespace WordStream

/-- The listed words, and zeros ever after. -/
def ofList (words : List UInt64) : WordStream where
  word := fun position => words[position]?.getD 0
  reach := fun position => words.length - position + 1
  recurs := by
    intro position later notBefore
    by_cases listed : later < words.length
    · exact ⟨later, notBefore, by omega, rfl⟩
    · refine ⟨max position words.length, by omega, by omega, ?_⟩
      rw [List.getElem?_eq_none (by omega), List.getElem?_eq_none (by omega)]

/-- A stream that repeats itself after a number of words. -/
def periodic (period : Nat) (positive : 0 < period) (word : Nat → UInt64) : WordStream where
  word := fun position => word (position % period)
  reach := fun _ => period
  recurs := by
    intro position later notBefore
    have remainder := Nat.mod_lt (later - position) positive
    refine ⟨position + (later - position) % period, by omega, by omega, ?_⟩
    rw [Nat.add_mod_mod, Nat.add_sub_cancel' notBefore]

end WordStream

/-- A stream with the number of words that have been drawn from it. -/
structure WordSource where
  stream : WordStream
  drawn : Nat

/-- A stream from which nothing has been drawn. -/
def WordStream.source (stream : WordStream) : WordSource where
  stream := stream
  drawn := 0

end ChartParser
