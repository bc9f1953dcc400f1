import ChartParser.Prompt.Dialogue
import ChartParser.Proofs.Parsing.Exactness
import Mathlib.Data.List.Induction

/-!
# Dialogues are answered piece by piece

What a prompt expects is all that it takes from one line to the next. So the answer
to lines that end between two commands does not depend on what follows, and what
follows is answered as if the prompt had just begun. The lines that are remembered
have no influence on the answers; they are the sentences with a parse.
-/

namespace ChartParser

namespace Session

variable {session : Session} {mode : Mode} {lines : List String} {sentence : String}

/-- Answers add to what has been written and logged before. -/
theorem foldl_respond (session : Session) (mode : Mode) (transcript : Transcript)
    (lines : List String) :
    lines.foldl
        (fun (mode, transcript) line =>
          let (next, answer) := session.respond mode line
          (next, transcript ++ answer))
        (mode, transcript) =
      ((session.respondAll mode lines).1, transcript ++ (session.respondAll mode lines).2) := by
  induction lines generalizing mode transcript with
  | nil => simp [respondAll]
  | cons line later inductionHypothesis =>
      simp only [respondAll, List.foldl_cons, Transcript.empty_append]
      rw [inductionHypothesis, inductionHypothesis _ (session.respond mode line).2,
        Transcript.append_assoc]

/-- Lines answered in two goes are answered one after the other. -/
theorem respondAll_append (session : Session) (mode : Mode) (first second : List String) :
    session.respondAll mode (first ++ second) =
      ((session.respondAll (session.respondAll mode first).1 second).1,
        (session.respondAll mode first).2 ++
          (session.respondAll (session.respondAll mode first).1 second).2) := by
  rw [← foldl_respond, respondAll, List.foldl_append]
  rfl

/-- What is expected after lines depends on what was expected before them, and on nothing else. -/
theorem mode_append (session : Session) (mode : Mode) (first second : List String) :
    (session.respondAll mode (first ++ second)).1 =
      (session.respondAll (session.respondAll mode first).1 second).1 := by
  rw [respondAll_append]

/-- One line is answered as the mode asks. -/
theorem respondAll_singleton (session : Session) (mode : Mode) (line : String) :
    session.respondAll mode [line] = session.respond mode line := by
  simp [respondAll]

/-- A first line is answered, and then the others. -/
theorem respondAll_cons (session : Session) (mode : Mode) (line : String) (later : List String) :
    session.respondAll mode (line :: later) =
      ((session.respondAll (session.respond mode line).1 later).1,
        (session.respond mode line).2 ++
          (session.respondAll (session.respond mode line).1 later).2) := by
  have parts := session.respondAll_append mode [line] later
  rwa [respondAll_singleton] at parts

/-- A prompt that has ended does not answer a line. -/
@[simp] theorem respond_ended (session : Session) (line : String) :
    session.respond .ended line = (.ended, .empty) :=
  rfl

/-- A prompt that has ended answers nothing. -/
theorem respondAll_ended (session : Session) (lines : List String) :
    session.respondAll .ended lines = (.ended, .empty) := by
  induction lines with
  | nil => rfl
  | cons line later inductionHypothesis =>
      rw [respondAll_cons]
      simp [inductionHypothesis]

/-- A command of one line is followed by another command. -/
theorem respond_command {line : String} (noRequest : Command.read line ≠ .parse)
    (noFarewell : Command.read line ≠ .quit) : (session.respond .command line).1 = .command := by
  rw [respond]
  cases asked : Command.read line with
  | empty | help | unknown => rfl
  | parse => exact absurd asked noRequest
  | quit => exact absurd asked noFarewell

/-- A request to parse asks for a sentence, and writes nothing. -/
theorem respond_request {line : String} (request : Command.read line = .parse) :
    session.respond .command line = (.sentence, .empty) := by
  rw [respond, request]

/-- A farewell ends the prompt, and writes nothing. -/
theorem respond_farewell {line : String} (farewell : Command.read line = .quit) :
    session.respond .command line = (.ended, .empty) := by
  rw [respond, farewell]

/-- A sentence is answered by its report, and followed by a command. -/
theorem respond_sentence (session : Session) (sentence : String) :
    (session.respond .sentence sentence).1 = .command ∧
      (session.respond .sentence sentence).2.output = session.report sentence ++ "\n" := by
  refine ⟨rfl, ?_⟩
  simp only [respond]
  split <;> simp [report]

/-- It is remembered if it has a parse. -/
theorem history_respond_sentence (session : Session) (sentence : String) :
    (session.respond .sentence sentence).2.history =
      if worthRemembering (session.parseSentence sentence).result then #[sentence] else #[] := by
  simp only [respond]
  split <;> simp

/-- Nothing else is remembered. -/
theorem mem_history_respond {line : String} :
    sentence ∈ (session.respond mode line).2.history ↔
      mode = .sentence ∧ sentence = line ∧
        worthRemembering (session.parseSentence sentence).result := by
  cases mode with
  | ended => simp
  | sentence =>
      rw [history_respond_sentence]
      split <;> simp_all
  | command =>
      rw [respond]
      cases Command.read line <;> simp

/-- Lines bring every prompt to expect what they are said to bring it to. -/
theorem Brings.mode_eq (brings : Brings lines mode) (session : Session) :
    (session.respondAll .command lines).1 = mode := by
  induction brings with
  | start => rfl
  | answered before noRequest noFarewell inductionHypothesis =>
      rw [mode_append, inductionHypothesis, respondAll_singleton,
        respond_command noRequest noFarewell]
  | requested before request inductionHypothesis =>
      rw [mode_append, inductionHypothesis, respondAll_singleton, respond_request request]
  | parsed before sentence inductionHypothesis =>
      rw [mode_append, inductionHypothesis, respondAll_singleton,
        (session.respond_sentence sentence).1]
  | quit before farewell later inductionHypothesis =>
      rw [mode_append, inductionHypothesis, respondAll_cons, respond_farewell farewell,
        respondAll_ended]

/-- All lines bring a prompt to expect something. -/
theorem exists_brings (lines : List String) : ∃ mode, Brings lines mode := by
  induction lines using List.reverseRecOn with
  | nil => exact ⟨_, .start⟩
  | append_singleton lines line inductionHypothesis =>
      obtain ⟨mode, before⟩ := inductionHypothesis
      cases mode with
      | command =>
          by_cases request : Command.read line = .parse
          · exact ⟨_, .requested before request⟩
          by_cases farewell : Command.read line = .quit
          · exact ⟨_, .quit before farewell []⟩
          exact ⟨_, .answered before request farewell⟩
      | sentence => exact ⟨_, .parsed before line⟩
      | ended =>
          -- The farewell came earlier, and one more line follows it.
          cases before with
          | quit before farewell later =>
              rw [List.append_assoc]
              exact ⟨_, .quit before farewell (later ++ [line])⟩

/-- They bring it to expect one thing only. -/
theorem Brings.unique {other : Mode} (brings : Brings lines mode)
    (otherBrings : Brings lines other) : mode = other := by
  let session : Session := ⟨default, .unlimited, .flat⟩
  rw [← brings.mode_eq session, otherBrings.mode_eq session]

/-- A prompt that has ended asks for nothing. -/
theorem converse_ended {Failure : Type} (session : Session)
    (readings : List (LineReading Failure)) :
    session.converse .ended readings = (.ok (), .empty) := by
  rw [converse]

/-- A line that is read is answered, and then whatever else is read. -/
theorem converse_line {Failure : Type} (session : Session) (mode : Mode) (line : String)
    (later : List (LineReading Failure)) :
    session.converse mode (.line line :: later) =
      ((session.converse (session.respond mode line).1 later).1,
        (session.respond mode line).2 ++
          (session.converse (session.respond mode line).1 later).2) := by
  cases mode with
  | ended => simp [converse_ended]
  | command | sentence => rfl

/-- Lines that are read are answered, and then whatever else is read. -/
theorem converse_lines {Failure : Type} (session : Session) (mode : Mode) (lines : List String)
    (later : List (LineReading Failure)) :
    session.converse mode (lines.map .line ++ later) =
      ((session.converse (session.respondAll mode lines).1 later).1,
        (session.respondAll mode lines).2 ++
          (session.converse (session.respondAll mode lines).1 later).2) := by
  induction lines generalizing mode with
  | nil => simp [respondAll]
  | cons line lines inductionHypothesis =>
      rw [List.map_cons, List.cons_append, converse_line, respondAll_cons, inductionHypothesis,
        Transcript.append_assoc]

/-- An input of lines comes to its end, whatever they say. -/
theorem converse_map_line {Failure : Type} (session : Session) (mode : Mode) (lines : List String) :
    session.converse mode (lines.map .line : List (LineReading Failure)) =
      (.ok (), (session.respondAll mode lines).2) := by
  have whole := session.converse_lines mode lines ([] : List (LineReading Failure))
  have finish : ∀ mode,
      session.converse mode ([] : List (LineReading Failure)) = (.ok (), .empty) := by
    intro mode
    cases mode <;> rfl
  rwa [List.append_nil, finish, Transcript.append_empty] at whole

/-- After lines that end between two commands a prompt goes on as if it had just begun. -/
theorem Brings.run_append (brings : Brings lines .command) (session : Session)
    (after : List String) :
    session.run (lines ++ after) = session.run lines ++ session.run after := by
  simp only [run, respondAll_append, brings.mode_eq]

/-- After a farewell nothing is answered. -/
theorem Brings.run_append_of_ended (brings : Brings lines .ended) (session : Session)
    (after : List String) : session.run (lines ++ after) = session.run lines := by
  simp only [run, respondAll_append, brings.mode_eq, respondAll_ended, Transcript.append_empty]

/-- After a request to parse the next line is answered as a sentence, and then a prompt goes on as
if it had just begun. -/
theorem Brings.output_run_append (brings : Brings lines .sentence) (session : Session)
    (sentence : String) (after : List String) :
    (session.run (lines ++ sentence :: after)).output =
      (session.run lines).output ++ session.report sentence ++ "\n" ++
        (session.run after).output := by
  obtain ⟨next, written⟩ := session.respond_sentence sentence
  simp only [run, respondAll_append, respondAll_cons, brings.mode_eq, next, Transcript.append_def,
    written, String.append_assoc]

/-- It is remembered if it has a parse, between what is remembered before it and after it. -/
theorem Brings.history_run_append (brings : Brings lines .sentence) (session : Session)
    (sentence : String) (after : List String) :
    (session.run (lines ++ sentence :: after)).history =
      (session.run lines).history ++
        (if worthRemembering (session.parseSentence sentence).result then #[sentence] else #[]) ++
        (session.run after).history := by
  obtain ⟨next, _⟩ := session.respond_sentence sentence
  simp only [run, respondAll_append, respondAll_cons, brings.mode_eq, next, Transcript.append_def,
    history_respond_sentence, Array.append_assoc]

/-- A prompt remembers the sentences with a parse, and nothing else that it has read. -/
theorem mem_history_run :
    sentence ∈ (session.run lines).history ↔
      ∃ before after, lines = before ++ sentence :: after ∧ Brings before .sentence ∧
        worthRemembering (session.parseSentence sentence).result := by
  constructor
  · -- The last line is remembered itself, or another is remembered before it.
    induction lines using List.reverseRecOn with
    | nil => simp [run, respondAll]
    | append_singleton lines line inductionHypothesis =>
        intro remembered
        rw [run, respondAll_append, respondAll_singleton, Transcript.append_def,
          Array.mem_append] at remembered
        rcases remembered with earlier | last
        · obtain ⟨before, after, rfl, brings, worth⟩ := inductionHypothesis earlier
          exact ⟨before, after ++ [line], by simp, brings, worth⟩
        · obtain ⟨expected, rfl, worth⟩ := mem_history_respond.mp last
          obtain ⟨mode, brings⟩ := exists_brings lines
          obtain rfl : mode = .sentence := by rw [← brings.mode_eq session, expected]
          exact ⟨lines, [], rfl, brings, worth⟩
  · rintro ⟨before, after, rfl, brings, worth⟩
    simp [brings.history_run_append, worth]

/-- What is worth remembering are the sentences of the grammar whose parse has an answer. -/
theorem worthRemembering_iff (reachable : session.grammar.Reachable) :
    worthRemembering (session.parseSentence sentence).result ↔
      (∃ trees, (session.parseSentence sentence).result = .ok trees) ∧
        ∃ tree : Tree, tree.Derives session.grammar session.grammar.start
          (Text.words sentence) := by
  cases parsed : (session.parseSentence sentence).result with
  | error failure => simp [worthRemembering]
  | ok trees =>
      simp only [← reachable.consistent.mem_iff_of_parse parsed]
      cases trees with
      | nil => simp [worthRemembering]
      | cons tree later => simp [worthRemembering]

/-- A prompt remembers the lines that it has read as sentences, if they are sentences of its grammar
and could be parsed within its budget. -/
theorem mem_history_run_iff_derives (reachable : session.grammar.Reachable) :
    sentence ∈ (session.run lines).history ↔
      ∃ before after, lines = before ++ sentence :: after ∧ Brings before .sentence ∧
        (∃ trees, (session.parseSentence sentence).result = .ok trees) ∧
          ∃ tree : Tree, tree.Derives session.grammar session.grammar.start
            (Text.words sentence) := by
  simp only [mem_history_run, worthRemembering_iff reachable]

/-- White space around a command does not count. -/
theorem respond_congr {line other : String} (same : Text.trim line = Text.trim other) :
    session.respond .command line = session.respond .command other := by
  rw [respond, respond, Command.read, Command.read, same]

/-- A prompt never fails on lines. They bring it to expect one thing: a command, and then what
follows is answered as if it had just begun, whatever white space there is around the next command;
a sentence, and then the next line is one, whatever it says; or nothing, and then nothing that
follows is answered. A request to parse alone is not answered. -/
theorem run_composes (session : Session) (before : List String) :
    (∀ Failure : Type, session.converse .command (before.map .line : List (LineReading Failure)) =
        (.ok (), session.run before)) ∧
      (∃! mode, Brings before mode) ∧
      (Brings before .command →
        (∀ after, session.run (before ++ after) = session.run before ++ session.run after) ∧
        (∀ line other after, Text.trim line = Text.trim other →
          session.run (before ++ line :: after) = session.run (before ++ other :: after)) ∧
        ∀ request, Command.read request = .parse →
          session.run (before ++ [request]) = session.run before) ∧
      (Brings before .sentence → ∀ sentence after,
        (session.run (before ++ sentence :: after)).output =
          (session.run before).output ++ session.report sentence ++ "\n" ++
            (session.run after).output) ∧
      (Brings before .ended → ∀ after, session.run (before ++ after) = session.run before) := by
  refine ⟨fun Failure => session.converse_map_line .command before, ?_, ?_, ?_, ?_⟩
  · obtain ⟨mode, brings⟩ := exists_brings before
    exact ⟨mode, brings, fun other otherBrings => otherBrings.unique brings⟩
  · intro brings
    refine ⟨brings.run_append session, ?_, ?_⟩
    · intro line other after same
      rw [brings.run_append, brings.run_append]
      simp only [run, respondAll_cons, respond_congr same]
    · intro request isRequest
      rw [brings.run_append]
      simp only [run, respondAll_singleton, respond_request isRequest, Transcript.append_empty]
  · exact fun brings => brings.output_run_append session
  · exact fun brings => brings.run_append_of_ended session

/-- A prompt that parses bracketings. -/
def bracketer : Session where
  grammar := Grammar.bracketing
  budget := .unlimited
  layout := .flat

/-- After a request to parse, a farewell is a sentence, here one without parses. The prompt goes on
with the next sentence until it meets a farewell as a command, and does not answer the request
behind it. -/
theorem farewell_as_sentence :
    Brings [" parse "] .sentence ∧ Brings ["?"] .command ∧ Brings ["q"] .ended ∧
      Text.trim "\tq" = Text.trim "q" ∧
      (bracketer.run ([" parse "] ++ "quit" ::
          (["?"] ++ ([" parse "] ++ "a a a" :: ([] ++ "\tq" :: ["parse", "a"]))))).output =
        "no valid parses\nunknown command `?`, try `help`\n" ++
          "[S [S a] [S [S a] [S a]]]\n[S [S [S a] [S a]] [S a]]\n2 parses\n" := by
  have request : Command.read " parse " = .parse := by decide +kernel
  have requested : Brings [" parse "] .sentence := .requested .start request
  have answered : Brings ["?"] .command :=
    .answered .start (by decide +kernel) (by decide +kernel)
  have ended : Brings ["q"] .ended := .quit .start (by decide +kernel) []
  have same : Text.trim "\tq" = Text.trim "q" := by decide +kernel
  refine ⟨requested, answered, ended, same, ?_⟩
  obtain ⟨_, trimmed, unanswered⟩ := (run_composes bracketer []).2.2.1 .start
  have alone : bracketer.run [" parse "] = bracketer.run [] := unanswered " parse " request
  have goesOn := ((run_composes bracketer ["?"]).2.2.1 answered).1
  have sentence := (run_composes bracketer [" parse "]).2.2.2.1 requested
  have unread : bracketer.run ("q" :: ["parse", "a"]) = bracketer.run ["q"] :=
    (run_composes bracketer ["q"]).2.2.2.2 ended ["parse", "a"]
  rw [sentence, goesOn, Transcript.append_def, sentence, trimmed _ _ _ same, List.nil_append,
    unread, alone]
  decide +kernel

end Session

end ChartParser
