import ChartParser.Text.Numbered
import ChartParser.Text.Shown

/-!
# Quoted text

Quoted text stands between double quotes on one line. A backslash goes before a
quote and before a backslash, four controls have letters of their own, and
other characters that cannot be shown are written as hexadecimal numbers in
braces.
-/

namespace ChartParser.Text

/-- A character as it stands between the quotes. -/
def quotedCharacter (character : Char) : String :=
  match character with
  | '"' => "\\\""
  | '\\' => "\\\\"
  | '\t' => "\\t"
  | '\n' => "\\n"
  | '\r' => "\\r"
  | '\x00' => "\\0"
  | _ =>
      if isShown character then String.singleton character
      else longNumber character

/-- A text between quotes. -/
def quoted (text : String) : String :=
  "\"" ++ String.join (text.toList.map quotedCharacter) ++ "\""

end ChartParser.Text
