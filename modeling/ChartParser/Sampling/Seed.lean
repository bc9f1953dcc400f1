import ChartParser.Sampling.ChaCha
import ChartParser.Sampling.Words

/-!
# Seeded streams

A seed is stretched to a key by a permuted congruential generator, and the
stream of the seed is the ChaCha key stream of that key. Two successive words
of a block, low word first, make one word of the stream.
-/

namespace ChartParser

namespace Seed

/-- The next state of the generator. -/
def advance (state : UInt64) : UInt64 :=
  state * 6364136223846793005 + 11634580027462260723

/-- The 32 bits that the generator gives out in a state. -/
def output (state : UInt64) : UInt32 :=
  let mixed := (((state >>> 18) ^^^ state) >>> 27).toUInt32
  let bits := (state >>> 59).toUInt32
  (mixed >>> bits) ||| (mixed <<< ((32 - bits) % 32))

/-- The key of a seed, one word for each of the next eight states. -/
def key (seed : UInt64) : ChaCha.Key :=
  Vector.ofFn fun place : Fin 8 => output (Nat.repeat advance (place.val + 1) seed)

/-- The number of stream words in a block. -/
def wordsPerBlock : Nat := 8

/-- The number of words after which the block counter begins again. -/
def period : Nat := wordsPerBlock * UInt64.size

/-- The word of the stream at a position before the counter begins again. -/
def word (key : ChaCha.Key) (position : Nat) : UInt64 :=
  let block := ChaCha.block key (UInt64.ofNat (position / wordsPerBlock))
  let place := 2 * (position % wordsPerBlock)
  let low := block[place]?.getD 0
  let high := block[place + 1]?.getD 0
  low.toUInt64 ||| (high.toUInt64 <<< 32)

end Seed

/-- The stream of a seed. -/
def WordStream.ofSeed (seed : UInt64) : WordStream :=
  let key := Seed.key seed
  periodic Seed.period (by decide) (Seed.word key)

end ChartParser
