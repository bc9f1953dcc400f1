import ChartParser.Parsing
import ChartParser.Text.Blank
import ChartParser.Transcript
import ChartParser.Tree.Rendering

/-!
# The prompt

The prompt reads one command from a line. After the command to parse, the next
line is the sentence, whatever it says, and it is remembered if it has a parse. The
prompt ends at the command to quit or where the input ends.
-/

namespace ChartParser

/-- What a line at the prompt asks for. A command that is not known keeps its text, without the
white space around it. -/
inductive Command where
  | empty
  | help
  | parse
  | quit
  | unknown (text : String)
deriving DecidableEq, Repr

/-- Read a command. White space around it does not count. -/
def Command.read (line : String) : Command :=
  match Text.trim line with
  | "" => empty
  | "help" => help
  | "parse" => parse
  | "quit" => quit
  | "q" => quit
  | text => unknown text

/-- How sentences are parsed and shown. -/
structure Session where
  grammar : Grammar
  budget : Budget
  layout : Tree.Layout

namespace Session

/-- Parse the words of a sentence. -/
def parseSentence (session : Session) (sentence : String) : ParseReport :=
  session.grammar.parseLogged session.budget (Text.words sentence)

/-- What stands between two derivations: a blank line sets indented ones apart. -/
def separator : Tree.Layout → String
  | .flat => "\n"
  | .indented => "\n\n"

/-- The number of parses in words. -/
def countLine (count : Nat) : String :=
  if count = 1 then "1 parse" else toString count ++ " parses"

/-- The result of a parse as it is shown. -/
def format (layout : Tree.Layout) : ParseResult → String
  | .error failure => "could not finish parsing: " ++ failure.message
  | .ok [] => "no valid parses"
  | .ok trees =>
      (separator layout).intercalate (trees.map fun tree => tree.render layout) ++ "\n" ++
        countLine trees.length

/-- What is shown for a sentence. -/
def report (session : Session) (sentence : String) : String :=
  format session.layout (session.parseSentence sentence).result

/-- Only sentences with a parse are remembered. -/
def worthRemembering : ParseResult → Bool
  | .error _ => false
  | .ok trees => !trees.isEmpty

/-- What the prompt shows as help. -/
def helpText : String :=
  "commands:\n" ++
  "    help      show this message\n" ++
  "    parse     parse a sentence, tokens separated by whitespace\n" ++
  "    quit, q   leave"

/-- What the prompt expects from the next line. -/
inductive Mode where
  | command
  | sentence
  | ended
deriving DecidableEq, Repr

/-- Answer one line. -/
def respond (session : Session) : Mode → String → Mode × Transcript
  | .ended, _ => (.ended, .empty)
  | .sentence, line =>
      let parsed := session.parseSentence line
      let logged := Transcript.empty.logAll (.parsing line :: parsed.events)
      let kept := if worthRemembering parsed.result then logged.remember line else logged
      (.command, kept.printLine (format session.layout parsed.result))
  | .command, line =>
      match Command.read line with
      | .empty => (.command, .empty)
      | .help => (.command, Transcript.empty.printLine helpText)
      | .parse => (.sentence, .empty)
      | .quit => (.ended, .empty)
      | .unknown text =>
          (.command, Transcript.empty.printLine ("unknown command `" ++ text ++ "`, try `help`"))

/-- Answer lines in order, starting in a mode. -/
def respondAll (session : Session) (mode : Mode) (lines : List String) : Mode × Transcript :=
  lines.foldl
    (fun (mode, transcript) line =>
      let (next, answer) := session.respond mode line
      (next, transcript ++ answer))
    (mode, .empty)

/-- Answer every line of an input. -/
def run (session : Session) (lines : List String) : Transcript :=
  (session.respondAll .command lines).2

end Session

end ChartParser
