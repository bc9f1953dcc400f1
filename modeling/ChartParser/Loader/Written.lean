import ChartParser.Loader.Line

/-!
# Grammars as they are written

Words are laid out on a line with white space between them. A line of four words
writes a binary rule and a line of three words a terminal rule, whatever the
second word is. Lines of other lengths may stand anywhere and write nothing.
-/

namespace ChartParser

/-- A text that stands as one word is not empty and holds no white space. -/
def IsWord (text : String) : Prop :=
  text.toList ≠ [] ∧ ∀ character ∈ text.toList, Text.isBlank character = false

/-- Words stand on a line in order. White space that does not end the line may stand anywhere
around them, and some stands between any two. -/
inductive LaidOut : List String → List Char → Prop where
  | nothing : LaidOut [] []
  | blank {words : List String} {character : Char} {rest : List Char}
      (isBlank : Text.isBlank character) (onLine : character ≠ '\n')
      (laid : LaidOut words rest) : LaidOut words (character :: rest)
  | word {words : List String} {rest : List Char} {word : String} (isWord : IsWord word)
      (apart : ∀ next ∈ rest.head?, Text.isBlank next) (laid : LaidOut words rest) :
      LaidOut (word :: words) (word.toList ++ rest)

namespace Registration

/-- The words that stand for a rule on a line, the second of them in the place of the arrow. -/
def onLine (arrow : String) : Registration → List String
  | binary name left right => [name, arrow, left, right]
  | terminal name token => [name, arrow, token]

/-- The symbols and the token of a rule. -/
def parts : Registration → List String
  | binary name left right => [name, left, right]
  | terminal name token => [name, token]

/-- A rule can be written when each of its parts can stand as a word. -/
def Writable (registration : Registration) : Prop :=
  ∀ part ∈ registration.parts, IsWord part

end Registration

/-- The rule that a line writes, if it writes one. -/
inductive LineWrites : List Char → Option Registration → Prop where
  | rule {line : List Char} {arrow : String} {registration : Registration}
      (laid : LaidOut (registration.onLine arrow) line) : LineWrites line (some registration)
  | nothing {line : List Char} {words : List String} (laid : LaidOut words line)
      (notThree : words.length ≠ 3) (notFour : words.length ≠ 4) : LineWrites line none

/-- The rules that a text writes, in order. Every line is ended by a line feed, with or without a
carriage return before it; the last one need not be. -/
inductive TextWrites : List Char → List Registration → Prop where
  | nothing : TextWrites [] []
  | unended {line : List Char} {written : Option Registration}
      (first : LineWrites line written) : TextWrites line written.toList
  | ended {line ending later : List Char} {written : Option Registration}
      {rest : List Registration} (first : LineWrites line written)
      (isEnding : ending = ['\n'] ∨ ending = ['\r', '\n']) (others : TextWrites later rest) :
      TextWrites (line ++ ending ++ later) (written.toList ++ rest)

/-- The rule that a line registers, if it registers one. -/
def Line.registration? : Line → Option Registration
  | registered registration => some registration
  | ignored _ => none

end ChartParser
