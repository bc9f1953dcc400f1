/-!
# Numbers on the command line

A number is written in ASCII digits, leading zeros allowed, with an optional
plus sign. A number that is read as a signed one may have a minus sign instead,
which only zero survives.
-/

namespace ChartParser.Arguments.Number

/-- The value of a nonempty run of digits. -/
def ofDigits (digits : List Char) : Option Nat :=
  if !digits.isEmpty && digits.all Char.isDigit then
    some (digits.foldl (fun value digit => 10 * value + (digit.toNat - '0'.toNat)) 0)
  else
    none

/-- Read a number below a bound. -/
def below (bound : Nat) (text : String) : Option Nat :=
  let digits := match text.toList with
    | '+' :: digits => digits
    | digits => digits
  (ofDigits digits).filter (· < bound)

/-- Read a signed number from zero up to, and without, a bound. -/
def signedBelow (bound : Nat) (text : String) : Option Nat :=
  match text.toList with
  | '-' :: digits => (ofDigits digits).filter (· = 0)
  | _ => below bound text

end ChartParser.Arguments.Number
