import ChartParser.Derivation.Licensed
import ChartParser.Program
import ChartParser.Proofs.Grammar.Registered
import ChartParser.Proofs.Loader.Outcome
import ChartParser.Proofs.Loader.Written

/-!
# Grammars that have been loaded

Whatever a stream delivers, a load registers only rules that can be written. So
the symbols and the tokens of a loaded grammar's derivations are words, whichever
symbol they start from.
-/

namespace ChartParser

open Text

/-- Every symbol and every token of the tree is a word. -/
def Tree.OfWords : Tree → Prop
  | leaf symbol token => IsWord symbol ∧ IsWord token
  | node symbol left right => IsWord symbol ∧ left.OfWords ∧ right.OfWords

/-- The tokens of a tree of words are words. -/
theorem Tree.OfWords.isWord_leaves {tree : Tree} (ofWords : tree.OfWords) :
    ∀ token ∈ tree.leaves, IsWord token := by
  induction tree with
  | leaf symbol token => simpa [Tree.leaves] using ofWords.2
  | node symbol left right leftHypothesis rightHypothesis =>
      exact List.forall_mem_append.mpr
        ⟨leftHypothesis ofWords.2.1, rightHypothesis ofWords.2.2⟩

/-- The words that register a rule are the words that stand for it, with some arrow. -/
theorem Line.exists_onLine {words : List String} {registration : Registration}
    (registered : registration ∈ (ofWords words).registration?) :
    ∃ arrow, words = registration.onLine arrow := by
  unfold ofWords at registered
  split at registered
  · cases registered
    exact ⟨_, rfl⟩
  · cases registered
    exact ⟨_, rfl⟩
  · cases registered

/-- The rule that a line registers can be written. -/
theorem Line.writable_read (text : String) :
    ∀ registration ∈ (read text).registration?, registration.Writable := by
  intro registration registered
  obtain ⟨arrow, onLine⟩ := exists_onLine registered
  have areWords : ∀ word ∈ registration.onLine arrow, IsWord word := by
    rw [← onLine]
    exact fun _ member => mem_words member
  exact (Registration.forall_onLine.mp areWords).2

namespace Loading

variable {loading loaded : Loading} {delivered : Delivered}

/-- Lines register rules that can be written, in order. -/
theorem exists_writable_of_lines (loading : Loading) (lines : List String) :
    ∃ registrations, (∀ registration ∈ registrations, registration.Writable) ∧
      (lines.foldl readLine loading).grammar = loading.grammar.registerAll registrations := by
  refine ⟨_, ?_, grammar_foldl_readLine loading lines⟩
  intro registration member
  obtain ⟨line, _, registered⟩ := List.mem_filterMap.mp member
  exact Line.writable_read line registration registered

/-- A load registers rules that can be written, in order. -/
theorem exists_writable (decided : LoadOutcome loading delivered (.ok loaded)) :
    ∃ registrations, (∀ registration ∈ registrations, registration.Writable) ∧
      loaded.grammar = loading.grammar.registerAll registrations := by
  cases decided with
  | @loaded texts last lines whole rest =>
      have asLines : (loading.readEnded texts).readLine last =
          (texts.map (fun line => String.ofList (dropFinal '\r' line.toList)) ++ [last]).foldl
            readLine loading := by
        rw [List.foldl_append, List.foldl_map]
        rfl
      rw [asLines]
      exact exists_writable_of_lines loading _

end Loading

namespace Grammar

variable {grammar : Grammar}

/-- Every rule of the grammar can be written. -/
def Writable (grammar : Grammar) : Prop :=
  ∀ registration, grammar.Registered registration → registration.Writable

/-- The derivations of a grammar that can be written consist of words. -/
theorem Writable.ofWords (writable : grammar.Writable) {tree : Tree}
    (licensed : tree.Licensed grammar) : tree.OfWords := by
  induction tree with
  | leaf symbol token =>
      have parts := writable (.terminal symbol token) licensed
      exact ⟨parts symbol List.mem_cons_self,
        parts token (List.mem_cons_of_mem _ List.mem_cons_self)⟩
  | node symbol left right leftHypothesis rightHypothesis =>
      obtain ⟨registered, leftLicensed, rightLicensed⟩ := licensed
      have parts := writable (.binary symbol left.symbol right.symbol) registered
      exact ⟨parts symbol List.mem_cons_self, leftHypothesis leftLicensed,
        rightHypothesis rightLicensed⟩

end Grammar

/-- A file that is loaded registers rules that can be written, in order. -/
theorem exists_writable_of_loadFile {path : String} {opened : Except Fault (List Delivery)}
    {grammar : Grammar} (loads : (loadFile path opened).result = .ok grammar) :
    ∃ registrations, (∀ registration ∈ registrations, registration.Writable) ∧
      grammar = (Grammar.empty Grammar.defaultStart).registerAll registrations := by
  cases opened with
  | error fault => cases loads
  | ok deliveries =>
      rw [loadFile] at loads
      cases read : (Loading.onto (.empty Grammar.defaultStart)).readStream deliveries with
      | error stopped =>
          rw [read] at loads
          cases loads
      | ok loading =>
          rw [read] at loads
          obtain rfl := Except.ok.inj loads
          exact Loading.exists_writable (Loading.readStream_eq_iff.mp read)

namespace Program

variable {settings : Arguments.Settings} {opened : Except Fault (List Delivery)}
  {prepared : Prepared}

/-- A prepared grammar comes from an empty one by a history of rules that can be written. -/
theorem exists_history_of_prepare (loads : prepare settings opened = .ok prepared) :
    ∃ history, prepared.grammar = (Grammar.empty Grammar.defaultStart).changeAll history ∧
      ∀ registration, .register registration ∈ history → Registration.Writable registration := by
  rw [prepare] at loads
  cases loaded : (loadFile settings.file opened).result with
  | error failure =>
      rw [loaded] at loads
      cases loads
  | ok grammar =>
      rw [loaded] at loads
      obtain rfl := Except.ok.inj loads
      obtain ⟨registrations, writable, rfl⟩ := exists_writable_of_loadFile loaded
      rw [Grammar.registerAll_eq_changeAll]
      cases settings.start with
      | none =>
          exact ⟨registrations.map .register, rfl, by simpa using writable⟩
      | some start =>
          refine ⟨registrations.map .register ++ [.startWith start], ?_, by simpa using writable⟩
          rw [Grammar.changeAll_append]
          rfl

/-- A prepared grammar is reachable. -/
theorem reachable_of_prepare (loads : prepare settings opened = .ok prepared) :
    prepared.grammar.Reachable := by
  obtain ⟨history, comes, _⟩ := exists_history_of_prepare loads
  exact ⟨Grammar.defaultStart, history, comes⟩

/-- A prepared grammar can be written. -/
theorem writable_of_prepare (loads : prepare settings opened = .ok prepared) :
    prepared.grammar.Writable := by
  obtain ⟨history, comes, writable⟩ := exists_history_of_prepare loads
  intro registration registered
  rw [comes, Grammar.registered_changeAll] at registered
  rcases registered with before | inHistory
  · exact absurd before (Grammar.not_registered_empty _ _)
  · exact writable registration inHistory

/-- A grammar with brackets in its symbols and its tokens. -/
def bracketedText : String :=
  "S -> [S a]\n[S := a\na] := b]\n"

/-- Settings to draw one derivation. -/
def bracketedSettings : Arguments.Settings where
  file := "brackets.cnf"
  sentence := []
  layout := .indented
  start := none
  budget := none
  generate := some 1
  seed := none
  maxDepth := 2
  verbosity := 0

/-- The rules of the bracketed text. -/
def bracketedGrammar : Grammar :=
  (Grammar.empty "S").registerAll
    [.binary "S" "[S" "a]", .terminal "[S" "a", .terminal "a]" "b]"]

/-- The bracketed text can be loaded. -/
theorem exists_prepared_bracketed :
    ∃ prepared, prepare bracketedSettings (.ok [.data (bytes bracketedText)]) = .ok prepared ∧
      prepared.grammar = bracketedGrammar := by
  have loaded : (prepare bracketedSettings (.ok [.data (bytes bracketedText)])).map
      Prepared.grammar = .ok bracketedGrammar := by
    decide +kernel
  cases prepares : prepare bracketedSettings (.ok [.data (bytes bracketedText)]) with
  | error failure =>
      rw [prepares] at loaded
      cases loaded
  | ok prepared =>
      rw [prepares] at loaded
      exact ⟨prepared, rfl, Except.ok.inj loaded⟩

end Program

end ChartParser
