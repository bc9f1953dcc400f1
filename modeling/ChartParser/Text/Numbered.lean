/-!
# Characters by their numbers

A character that is not shown as it is stands in a text as the hexadecimal
number of its code point, behind a backslash. The long form takes any
character; the short form takes one of two digits.
-/

namespace ChartParser.Text

/-- A number in lower-case hexadecimal digits, with zeros in front up to a width. -/
def hexadecimal (width value : Nat) : String :=
  let digits := Nat.toDigits 16 value
  String.ofList (List.replicate (width - digits.length) '0' ++ digits)

/-- The number of a character between braces, without leading zeros. -/
def longNumber (character : Char) : String :=
  "\\u\x7b" ++ hexadecimal 1 character.toNat ++ "\x7d"

/-- The number of a character below 256 in two digits. -/
def shortNumber (character : Char) : String :=
  "\\x" ++ hexadecimal 2 character.toNat

end ChartParser.Text
