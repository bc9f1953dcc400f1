/-!
# The ChaCha block function

A block mixes a state of sixteen 32-bit words: four constants, a key of eight
words, a block counter and a nonce of two words each. Twelve rounds are done,
alternating between the columns and the diagonals of the state, and the state
before them is added to the result.
-/

namespace ChartParser.ChaCha

/-- Sixteen words, row by row. -/
abbrev State := Vector UInt32 16

/-- A key of eight words. -/
abbrev Key := Vector UInt32 8

/-- Rotate a word to the left by fewer than 32 bits. -/
def rotateLeft (word : UInt32) (bits : UInt32) : UInt32 :=
  (word <<< bits) ||| (word >>> (32 - bits))

/-- Add one word to another and mix the sum into a third, which is rotated. -/
def mix (state : State) (sum addend target : Fin 16) (bits : UInt32) : State :=
  let added := state.set sum (state[sum] + state[addend])
  added.set target (rotateLeft (added[target] ^^^ added[sum]) bits)

/-- Mix four words of the state. -/
def quarterRound (state : State) (a b c d : Fin 16) : State :=
  let first := mix state a b d 16
  let second := mix first c d b 12
  let third := mix second a b d 8
  mix third c d b 7

/-- Mix the four columns, then the four diagonals. -/
def doubleRound (state : State) : State :=
  let column0 := quarterRound state 0 4 8 12
  let column1 := quarterRound column0 1 5 9 13
  let column2 := quarterRound column1 2 6 10 14
  let column3 := quarterRound column2 3 7 11 15
  let diagonal0 := quarterRound column3 0 5 10 15
  let diagonal1 := quarterRound diagonal0 1 6 11 12
  let diagonal2 := quarterRound diagonal1 2 7 8 13
  quarterRound diagonal2 3 4 9 14

/-- Twelve rounds. -/
def rounds (state : State) : State :=
  Nat.repeat doubleRound 6 state

/-- The state before the rounds, with a nonce of zero. -/
def initial (key : Key) (counter : UInt64) : State :=
  #v[0x61707865, 0x3320646e, 0x79622d32, 0x6b206574,
    key[0], key[1], key[2], key[3],
    key[4], key[5], key[6], key[7],
    counter.toUInt32, (counter >>> 32).toUInt32, 0, 0]

/-- The block of a counter. -/
def block (key : Key) (counter : UInt64) : State :=
  let state := initial key counter
  Vector.zipWith (· + ·) (rounds state) state

end ChartParser.ChaCha
