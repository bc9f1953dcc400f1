import ChartParser.Proofs.Loader.Written
import ChartParser.Proofs.Program.Prepared
import ChartParser.Proofs.Prompt.Dialogue

/-!
# Sentences on the command line

The words of a sentence are joined with spaces, and white space within a word takes
its tokens apart all the same. So only the tokens count, in their order, and not how
they are grouped into arguments; and the prompt answers the same tokens alike.
-/

namespace ChartParser

namespace Session

/-- What is shown for a sentence are the parses of its tokens. -/
theorem report_eq (session : Session) (sentence : String) :
    session.report sentence =
      format session.layout (session.grammar.parse session.budget (Text.words sentence)) :=
  rfl

end Session

/-- Tokens that are joined with single spaces are told apart again. -/
theorem words_joined_tokens (texts : List String) :
    Text.words (" ".intercalate (texts.flatMap Text.words)) = texts.flatMap Text.words := by
  apply words_intercalate_of_isWord
  intro token member
  obtain ⟨text, _, inText⟩ := List.mem_flatMap.mp member
  exact Text.mem_words inText

namespace Program

/-- The answer to some tokens: their parses, limited and shown as the settings say. -/
def answerTo (settings : Arguments.Settings) (grammar : Grammar) (tokens : List Token) : String :=
  Session.format settings.layout (grammar.parse settings.parseBudget tokens) ++ "\n"

variable (settings : Arguments.Settings) {words others : List String}

/-- Settings with words for a sentence, and no derivations to draw, ask for the sentence. -/
theorem Task.ofSettings_eq_parse (noSamples : settings.generate = none)
    (given : settings.sentence ≠ []) :
    ofSettings settings = parse (" ".intercalate settings.sentence) := by
  rw [ofSettings, noSamples]
  cases sentence : settings.sentence with
  | nil => exact absurd sentence given
  | cons word later => rfl

/-- A sentence on the command line has its tokens parsed, and what that comes to is written. -/
theorem perform_sentence (noSamples : settings.generate = none) (given : settings.sentence ≠ [])
    (prepared : Prepared) (seed : UInt64) (input : String) :
    perform settings prepared seed input =
      let parsed := prepared.grammar.parseLogged settings.parseBudget
        (settings.sentence.flatMap Text.words)
      (prepared.transcript.logAll parsed.events).printLine
        (Session.format settings.layout parsed.result) := by
  rw [perform, Task.ofSettings_eq_parse settings noSamples given, ← Text.words_intercalate]
  rfl

/-- What is written for it is the answer to its tokens. -/
theorem output_perform_sentence (noSamples : settings.generate = none)
    (given : settings.sentence ≠ []) (prepared : Prepared) (seed : UInt64) (input : String) :
    (perform settings prepared seed input).output =
      prepared.transcript.output ++
        answerTo settings prepared.grammar (settings.sentence.flatMap Text.words) := by
  rw [perform_sentence settings noSamples given, Transcript.printLine, Transcript.output_logAll,
    answerTo, String.append_assoc]
  rfl

/-- The tokens of a sentence on the command line decide all that is written and logged. -/
theorem perform_congr_sentence (noSamples : settings.generate = none) (given : words ≠ [])
    (othersGiven : others ≠ []) (same : words.flatMap Text.words = others.flatMap Text.words)
    (prepared : Prepared) (seed : UInt64) (input : String) :
    perform { settings with sentence := words } prepared seed input =
      perform { settings with sentence := others } prepared seed input := by
  have first := perform_sentence { settings with sentence := words } noSamples given prepared seed
    input
  have second := perform_sentence { settings with sentence := others } noSamples othersGiven
    prepared seed input
  rw [first, second, same]
  rfl

/-- So do they for whole runs: neither the file nor the start symbol depends on a sentence. -/
theorem run_congr_sentence (noSamples : settings.generate = none) (given : words ≠ [])
    (othersGiven : others ≠ []) (same : words.flatMap Text.words = others.flatMap Text.words)
    {arguments otherArguments : List String}
    (reads : Arguments.read arguments = .ok { settings with sentence := words })
    (othersRead : Arguments.read otherArguments = .ok { settings with sentence := others })
    (openPath : String → Except Fault (List Delivery)) (input : String) (seed : UInt64) :
    run arguments openPath input seed = run otherArguments openPath input seed := by
  have prepares : prepare { settings with sentence := words } = prepare settings ∧
      prepare { settings with sentence := others } = prepare settings := ⟨rfl, rfl⟩
  simp only [run, reads, othersRead, prepares]
  cases prepare settings (openPath settings.file) with
  | error failure => rfl
  | ok prepared =>
      exact congrArg (Outcome.finished settings.logLevel)
        (perform_congr_sentence settings noSamples given othersGiven same prepared seed input)

/-- Where the prompt expects a sentence, it answers tokens that are joined with single spaces. -/
theorem output_run_joined_tokens {before : List String} (brings : Session.Brings before .sentence)
    (grammar : Grammar) (words after : List String) :
    ((sessionOf settings grammar).run
        (before ++ " ".intercalate (words.flatMap Text.words) :: after)).output =
      ((sessionOf settings grammar).run before).output ++
        answerTo settings grammar (words.flatMap Text.words) ++
        ((sessionOf settings grammar).run after).output := by
  rw [brings.output_run_append, Session.report_eq, words_joined_tokens, answerTo,
    ← String.append_assoc]
  rfl

/-- Only the tokens of a sentence on the command line count. However they are grouped into words,
with whatever white space, runs write and log the same; what is written is the answer to the tokens;
and it is what the prompt answers to the tokens joined with single spaces, wherever it expects a
sentence. -/
theorem sentence_answered_by_tokens (settings : Arguments.Settings)
    (noSamples : settings.generate = none) (words others : List String) (given : words ≠ [])
    (othersGiven : others ≠ []) (same : words.flatMap Text.words = others.flatMap Text.words) :
    (∀ prepared seed input,
      perform { settings with sentence := words } prepared seed input =
          perform { settings with sentence := others } prepared seed input ∧
        (perform { settings with sentence := words } prepared seed input).output =
          prepared.transcript.output ++
            answerTo settings prepared.grammar (words.flatMap Text.words)) ∧
      (∀ arguments otherArguments openPath input seed,
        Arguments.read arguments = .ok { settings with sentence := words } →
        Arguments.read otherArguments = .ok { settings with sentence := others } →
        run arguments openPath input seed = run otherArguments openPath input seed) ∧
      ∀ before, Session.Brings before .sentence → ∀ grammar after,
        ((sessionOf settings grammar).run
            (before ++ " ".intercalate (words.flatMap Text.words) :: after)).output =
          ((sessionOf settings grammar).run before).output ++
            answerTo settings grammar (words.flatMap Text.words) ++
            ((sessionOf settings grammar).run after).output := by
  refine ⟨?_, ?_, ?_⟩
  · intro prepared seed input
    exact ⟨perform_congr_sentence settings noSamples given othersGiven same prepared seed input,
      output_perform_sentence { settings with sentence := words } noSamples given prepared seed
        input⟩
  · intro arguments otherArguments openPath input seed reads othersRead
    exact run_congr_sentence settings noSamples given othersGiven same reads othersRead openPath
      input seed
  · intro before brings grammar after
    exact output_run_joined_tokens settings brings grammar words after

/-- Settings to parse sentences with the bracketed grammar. -/
def sentenceSettings : Arguments.Settings :=
  { bracketedSettings with generate := none }

/-- Three words, one of them empty and one with white space of two kinds, are the same sentence as
one word with a space in it. Every run answers them alike, and so does the prompt. -/
theorem spaced_words_answered :
    ["a", "", "\u3000b]\t"].flatMap Text.words = ["a b]"].flatMap Text.words ∧
      (∀ openPath input seed,
        run ["-p", "--max-depth=2", "brackets.cnf", "a", "", "\u3000b]\t"] openPath input seed =
          run ["-p", "--max-depth=2", "brackets.cnf", "a b]"] openPath input seed) ∧
      (perform { sentenceSettings with sentence := ["a b]"] }
          ⟨bracketedGrammar, .empty⟩ 0 "").output =
        "[S\n    [[S a]\n    [a] b]]\n]\n1 parse\n" ∧
      ((sessionOf sentenceSettings bracketedGrammar).run ["parse", "a b]", "q"]).output =
        "[S\n    [[S a]\n    [a] b]]\n]\n1 parse\n" := by
  have same : ["a", "", "\u3000b]\t"].flatMap Text.words = ["a b]"].flatMap Text.words := rfl
  have answer : answerTo sentenceSettings bracketedGrammar
      (["a", "", "\u3000b]\t"].flatMap Text.words) =
        "[S\n    [[S a]\n    [a] b]]\n]\n1 parse\n" := by
    decide +kernel
  have requested : Session.Brings ["parse"] .sentence := .requested .start rfl
  obtain ⟨performs, runs, prompts⟩ := sentence_answered_by_tokens sentenceSettings rfl
    ["a", "", "\u3000b]\t"] ["a b]"] (List.cons_ne_nil _ _) (List.cons_ne_nil _ _) same
  refine ⟨same, ?_, ?_, ?_⟩
  · exact fun openPath input seed => runs _ _ openPath input seed rfl rfl
  · obtain ⟨alike, written⟩ := performs ⟨bracketedGrammar, .empty⟩ 0 ""
    rw [← alike]
    exact written.trans answer
  · have prompted := prompts ["parse"] requested bracketedGrammar ["q"]
    rw [answer] at prompted
    exact prompted

end Program

end ChartParser
