import ChartParser.Event.Basic

/-!
# Transcripts

A transcript holds what a program has written to its output, what it has logged,
and which lines it has had remembered for whoever types the next one, each in order.
-/

namespace ChartParser

/-- Output, logged events, and lines to remember. -/
structure Transcript where
  output : String
  events : Array Event
  history : Array String
deriving DecidableEq, Repr

namespace Transcript

/-- Nothing has been written, logged or remembered. -/
def empty : Transcript where
  output := ""
  events := #[]
  history := #[]

/-- Write a text and end the line. -/
def printLine (transcript : Transcript) (text : String) : Transcript :=
  { transcript with output := transcript.output ++ text ++ "\n" }

/-- Log an event. -/
def log (transcript : Transcript) (event : Event) : Transcript :=
  { transcript with events := transcript.events.push event }

/-- Remember a line. -/
def remember (transcript : Transcript) (line : String) : Transcript :=
  { transcript with history := transcript.history.push line }

/-- Log events in order. -/
def logAll (transcript : Transcript) (events : List Event) : Transcript :=
  events.foldl log transcript

/-- One transcript after another. -/
def append (first second : Transcript) : Transcript where
  output := first.output ++ second.output
  events := first.events ++ second.events
  history := first.history ++ second.history

instance : Append Transcript := ⟨append⟩

/-- Output follows output, events follow events, and what is remembered follows what has been. -/
theorem append_def (first second : Transcript) :
    first ++ second =
      ⟨first.output ++ second.output, first.events ++ second.events,
        first.history ++ second.history⟩ :=
  rfl

@[simp] theorem append_empty (transcript : Transcript) : transcript ++ empty = transcript := by
  simp [append_def, empty]

@[simp] theorem empty_append (transcript : Transcript) : empty ++ transcript = transcript := by
  simp [append_def, empty]

/-- Transcripts can be joined in any grouping. -/
theorem append_assoc (first second third : Transcript) :
    first ++ second ++ third = first ++ (second ++ third) := by
  simp [append_def, String.append_assoc, Array.append_assoc]

@[simp] theorem output_empty : empty.output = "" :=
  rfl

@[simp] theorem history_empty : empty.history = #[] :=
  rfl

@[simp] theorem output_printLine (transcript : Transcript) (text : String) :
    (transcript.printLine text).output = transcript.output ++ text ++ "\n" :=
  rfl

@[simp] theorem history_printLine (transcript : Transcript) (text : String) :
    (transcript.printLine text).history = transcript.history :=
  rfl

@[simp] theorem output_remember (transcript : Transcript) (line : String) :
    (transcript.remember line).output = transcript.output :=
  rfl

@[simp] theorem history_remember (transcript : Transcript) (line : String) :
    (transcript.remember line).history = transcript.history.push line :=
  rfl

/-- Logging writes nothing, and has nothing remembered. -/
theorem logAll_eq (transcript : Transcript) (events : List Event) :
    transcript.logAll events =
      { transcript with events := transcript.events ++ events.toArray } := by
  induction events generalizing transcript with
  | nil => simp [logAll]
  | cons event later inductionHypothesis =>
      rw [logAll, List.foldl_cons, ← logAll, inductionHypothesis]
      simp [log]

@[simp] theorem output_logAll (transcript : Transcript) (events : List Event) :
    (transcript.logAll events).output = transcript.output := by
  rw [logAll_eq]

@[simp] theorem history_logAll (transcript : Transcript) (events : List Event) :
    (transcript.logAll events).history = transcript.history := by
  rw [logAll_eq]

end Transcript

end ChartParser
