import ChartParser.Prompt

/-!
# Dialogues

A dialogue goes from command to command. Most commands are one line; a request to
parse is two, because the line after it is the sentence. `Brings` says what lines
bring a prompt to expect, whatever it answers.

Lines come one at a time. Asking for one may be broken off, which ends a prompt as
the end of the input does, or may fail, and then the prompt fails.
-/

namespace ChartParser

/-- What comes of asking for a line: there is one, or the question has been broken off, or none can
be read. -/
inductive LineReading (Failure : Type) where
  | line (text : String)
  | interrupted
  | failed (failure : Failure)

namespace Session

/-- What lines bring a prompt to expect after them. The line after a request to parse is a sentence,
whatever it says, and whatever comes after a farewell is not read. -/
inductive Brings : List String → Mode → Prop where
  | start : Brings [] .command
  | answered {lines : List String} {line : String} (before : Brings lines .command)
      (noRequest : Command.read line ≠ .parse) (noFarewell : Command.read line ≠ .quit) :
      Brings (lines ++ [line]) .command
  | requested {lines : List String} {line : String} (before : Brings lines .command)
      (request : Command.read line = .parse) : Brings (lines ++ [line]) .sentence
  | parsed {lines : List String} (before : Brings lines .sentence) (sentence : String) :
      Brings (lines ++ [sentence]) .command
  | quit {lines : List String} {line : String} (before : Brings lines .command)
      (farewell : Command.read line = .quit) (later : List String) :
      Brings (lines ++ line :: later) .ended

/-- Ask for lines and answer them until the prompt ends. The input ends after the last reading. -/
def converse {Failure : Type} (session : Session) :
    Mode → List (LineReading Failure) → Except Failure Unit × Transcript
  | .ended, _ => (.ok (), .empty)
  | _, [] => (.ok (), .empty)
  | _, .interrupted :: _ => (.ok (), .empty)
  | _, .failed failure :: _ => (.error failure, .empty)
  | mode, .line text :: later =>
      let (next, answer) := session.respond mode text
      let (ending, rest) := session.converse next later
      (ending, answer ++ rest)

end Session

end ChartParser
