import ChartParser.Proofs.Parsing.Exactness
import ChartParser.Proofs.Program.Prepared
import ChartParser.Proofs.Sampling.Drawing
import Mathlib.Data.UInt

/-!
# Printed samples are parsed back

The tokens of a loaded grammar are words, so a sentence that is printed with
single spaces between its tokens is taken apart into the same tokens. Hence a
derivation that is drawn and printed is one of the parses of its printed
sentence.
-/

namespace ChartParser

namespace Grammar

variable {grammar : Grammar} {limit amount : Nat} {source : WordSource} {tree : Tree}

/-- The derivations that are drawn from one source, one after the other, in so many attempts. -/
def samples (grammar : Grammar) (limit : Nat) : Nat → WordSource → List Tree
  | 0, _ => []
  | amount + 1, source =>
      match grammar.draw limit source with
      | ⟨.ok tree, rest⟩ => tree :: grammar.samples limit amount rest
      | ⟨.error _, rest⟩ => grammar.samples limit amount rest

/-- Every sample has been drawn from the source in some state of it. -/
theorem exists_source_of_mem_samples (member : tree ∈ grammar.samples limit amount source) :
    ∃ earlier rest, grammar.draw limit earlier = ⟨.ok tree, rest⟩ := by
  induction amount generalizing source with
  | zero => cases member
  | succ amount inductionHypothesis =>
      rw [samples] at member
      rcases drawn : grammar.draw limit source with ⟨failure | found, rest⟩
      · rw [drawn] at member
        exact inductionHypothesis member
      · rw [drawn] at member
        rcases List.mem_cons.mp member with rfl | later
        · exact ⟨source, rest, drawn⟩
        · exact inductionHypothesis later

/-- A sample derives its own tokens from the start symbol. -/
theorem derives_of_mem_samples (member : tree ∈ grammar.samples limit amount source) :
    tree.Derives grammar grammar.start tree.leaves := by
  obtain ⟨earlier, rest, drawn⟩ := exists_source_of_mem_samples member
  obtain ⟨root, _, licensed⟩ := drawWithin_eq_ok drawn
  exact ⟨root, rfl, licensed⟩

end Grammar

namespace Program

/-- The samples are printed one after the other, each with its sentence on a line before it, and
nothing else is. -/
theorem output_printSamples (grammar : Grammar) (limit : Nat) (layout : Tree.Layout)
    (amount : Nat) (source : WordSource) (transcript : Transcript) :
    (printSamples grammar limit layout amount source transcript).output =
      transcript.output ++
        String.join ((grammar.samples limit amount source).map fun tree =>
          " ".intercalate tree.leaves ++ "\n" ++ tree.render layout ++ "\n") := by
  induction amount generalizing source transcript with
  | zero => simp [printSamples, Grammar.samples]
  | succ amount inductionHypothesis =>
      rw [printSamples, Grammar.samples]
      rcases grammar.draw limit source with ⟨failure | tree, rest⟩
      · exact inductionHypothesis rest _
      · refine (inductionHypothesis rest _).trans ?_
        simp [printSample, Transcript.printLine, Transcript.log, String.append_assoc]

/-- What a grammar that has been loaded prints as samples is a line with the tokens of a derivation
and the derivation, for every derivation that is drawn. Read as a sentence, the line has these
tokens, and without a limit the derivation is listed once among its parses, so the report shows
it. -/
theorem printed_samples_are_parsed_back {settings : Arguments.Settings}
    {opened : Except Fault (List Delivery)} {prepared : Prepared}
    (loads : prepare settings opened = .ok prepared) (limit : Nat) (layout : Tree.Layout)
    (amount : Nat) (source : WordSource) (transcript : Transcript) :
    (printSamples prepared.grammar limit layout amount source transcript).output =
        transcript.output ++ String.join
          ((prepared.grammar.samples limit amount source).map fun tree =>
            " ".intercalate tree.leaves ++ "\n" ++ tree.render layout ++ "\n") ∧
      ∀ tree ∈ prepared.grammar.samples limit amount source,
        Text.words (" ".intercalate tree.leaves) = tree.leaves ∧
        ∃ trees,
          (Session.parseSentence ⟨prepared.grammar, .unlimited, layout⟩
            (" ".intercalate tree.leaves)).result = .ok trees ∧
          trees.count tree = 1 ∧
          Session.report ⟨prepared.grammar, .unlimited, layout⟩ (" ".intercalate tree.leaves) =
            (Session.separator layout).intercalate (trees.map fun tree => tree.render layout) ++
              "\n" ++ Session.countLine trees.length := by
  refine ⟨output_printSamples _ _ _ _ _ _, ?_⟩
  intro tree member
  have derives := Grammar.derives_of_mem_samples member
  have consistent := (reachable_of_prepare loads).consistent
  have ofWords := (writable_of_prepare loads).ofWords derives.2.2
  have readBack := words_intercalate_of_isWord ofWords.isWord_leaves
  have parsed : (Session.parseSentence ⟨prepared.grammar, .unlimited, layout⟩
      (" ".intercalate tree.leaves)).result = .ok (prepared.grammar.parses tree.leaves) := by
    rw [Session.parseSentence, readBack, Grammar.parses_eq]
    exact Grammar.parse_unlimited _ _
  have listed := (consistent.mem_parses tree.leaves tree).mpr derives
  refine ⟨readBack, prepared.grammar.parses tree.leaves, parsed,
    List.count_eq_one_of_mem (consistent.nodup_parses _) listed, ?_⟩
  rw [Session.report, parsed]
  cases parses : prepared.grammar.parses tree.leaves with
  | nil =>
      rw [parses] at listed
      cases listed
  | cons first later => rfl

/-- The only derivation of the bracketed grammar is printed with its sentence, and the sentence is
parsed back. -/
theorem bracketed_sample_is_parsed_back :
    ∃ prepared, prepare bracketedSettings (.ok [.data (Text.bytes bracketedText)]) = .ok prepared ∧
      (printSamples prepared.grammar 2 .indented 1 (WordStream.ofList []).source .empty).output =
        "a b]\n[S\n    [[S a]\n    [a] b]]\n]\n" ∧
      Text.words "a b]" = ["a", "b]"] ∧
      ∃ trees, (Session.parseSentence ⟨prepared.grammar, .unlimited, .indented⟩ "a b]").result =
          .ok trees ∧
        trees.count (.node "S" (.leaf "[S" "a") (.leaf "a]" "b]")) = 1 := by
  obtain ⟨prepared, loads, rules⟩ := exists_prepared_bracketed
  have member : Tree.node "S" (.leaf "[S" "a") (.leaf "a]" "b]") ∈
      prepared.grammar.samples 2 1 (WordStream.ofList []).source := by
    rw [rules]
    decide +kernel
  obtain ⟨readBack, trees, parsed, once, _⟩ :=
    (printed_samples_are_parsed_back loads 2 .indented 1 (WordStream.ofList []).source .empty).2 _
      member
  refine ⟨prepared, loads, ?_, readBack, trees, parsed, once⟩
  rw [rules]
  decide +kernel

end Program

end ChartParser
