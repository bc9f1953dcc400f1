import ChartParser.Event.Basic
import ChartParser.Text.Quoted
import ChartParser.Text.Terminal

/-!
# Log lines

An event is logged as one text: its level in five columns, its target, its
message, and every field as a name, an equals sign and a value. The message has
no power over the terminal that shows it; plain fields are written as they are.
The text is one line of the log unless a name in it holds a line feed.
-/

namespace ChartParser

namespace Level

/-- The name of a level. -/
def name : Level → String
  | trace => "TRACE"
  | debug => "DEBUG"
  | warn => "WARN"

/-- The name of a level, aligned to the right of five columns. -/
def column : Level → String
  | warn => " WARN"
  | level => level.name

/-- How much a level matters, as a number. -/
def weight : Level → Nat
  | trace => 0
  | debug => 1
  | warn => 2

/-- Whether events of a level are logged where a least level is set. -/
def reaches (level least : Level) : Bool :=
  least.weight ≤ level.weight

end Level

/-- The value of a field on a log line. -/
def FieldValue.display : FieldValue → String
  | number value => toString value
  | plain text => text
  | quoted text => Text.quoted text

namespace Event

/-- The event as it is logged. -/
def text (event : Event) : String :=
  let fields := event.fields.map fun (name, value) => " " ++ name ++ "=" ++ value.display
  event.level.column ++ " " ++ event.target ++ ": " ++ Text.forTerminal event.message ++
    String.join fields

/-- The lines of the events that reach a level, in order. -/
def lines (least : Level) (events : List Event) : List String :=
  (events.filter fun event => event.level.reaches least).flatMap fun event =>
    (event.text.toList.splitOn '\n').map String.ofList

end Event

end ChartParser
