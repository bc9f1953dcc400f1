import ChartParser.Text.Numbered

/-!
# Text for a terminal

Some control characters begin a command to the terminal, or move or erase what
it shows. A text that must not do so has them written by number. Other
characters stay as they are, line feeds and tabs among them.
-/

namespace ChartParser.Text

/-- The controls of ASCII that a terminal obeys: bell, backspace, form feed, escape and delete. -/
def steeringControls : List Char :=
  ['\x07', '\x08', '\x0c', '\x1b', '\x7f']

/-- A character as it stands in a text for a terminal. -/
def terminalCharacter (character : Char) : String :=
  if character ∈ steeringControls then shortNumber character
  else if 0x80 ≤ character.toNat ∧ character.toNat ≤ 0x9F then longNumber character
  else String.singleton character

/-- A text without the power to steer a terminal. -/
def forTerminal (text : String) : String :=
  String.join (text.toList.map terminalCharacter)

end ChartParser.Text
