import ChartParser.Proofs.Derivation.Leftmost

/-!
# Trees and rewriting

Symbols may be expanded in any order, and still every form that leads to a
sentence `Yields` it: the sentence is cut into one stretch for every piece of the
form, and the stretch of a symbol is derived by a licensed tree. One step taken
back keeps this, hence all steps taken back do.
-/

namespace ChartParser.Grammar

/-- The tokens of a form, where a licensed tree over some tokens stands for every symbol. -/
inductive Yields (grammar : Grammar) : SententialForm → List Token → Prop where
  | nil : Yields grammar [] []
  | token {form : SententialForm} {tokens : List Token} (token : Token)
      (rest : grammar.Yields form tokens) : Yields grammar (.token token :: form) (token :: tokens)
  | symbol {form : SententialForm} {tokens : List Token} {tree : Tree}
      (licensed : tree.Licensed grammar) (rest : grammar.Yields form tokens) :
      Yields grammar (.symbol tree.symbol :: form) (tree.leaves ++ tokens)

variable {grammar : Grammar} {first next form : SententialForm} {tokens : List Token}
  {name : Symbol}

/-- What two forms yield, one after the other, they yield together. -/
theorem Yields.append {second : SententialForm} {left right : List Token}
    (firstYields : grammar.Yields first left) (secondYields : grammar.Yields second right) :
    grammar.Yields (first ++ second) (left ++ right) := by
  induction firstYields with
  | nil => exact secondYields
  | token token _ inductionHypothesis => exact .token token inductionHypothesis
  | symbol licensed _ inductionHypothesis =>
      rw [List.append_assoc]
      exact .symbol licensed inductionHypothesis

/-- What two forms yield together is cut where the second form begins. -/
theorem Yields.exists_cut {second : SententialForm}
    (yields : grammar.Yields (first ++ second) tokens) :
    ∃ left right, tokens = left ++ right ∧ grammar.Yields first left ∧
      grammar.Yields second right := by
  induction first generalizing tokens with
  | nil => exact ⟨[], tokens, rfl, .nil, yields⟩
  | cons piece first inductionHypothesis =>
      cases yields with
      | token token rest =>
          obtain ⟨left, right, rfl, firstYields, secondYields⟩ := inductionHypothesis rest
          exact ⟨token :: left, right, rfl, .token token firstYields, secondYields⟩
      | @symbol _ _ tree licensed rest =>
          obtain ⟨left, right, rfl, firstYields, secondYields⟩ := inductionHypothesis rest
          exact ⟨tree.leaves ++ left, right, (List.append_assoc _ _ _).symm,
            .symbol licensed firstYields, secondYields⟩

/-- Tokens yield themselves. -/
theorem yields_tokens (tokens : List Token) : grammar.Yields (tokens.map .token) tokens := by
  induction tokens with
  | nil => exact .nil
  | cons token tokens inductionHypothesis => exact .token token inductionHypothesis

/-- A symbol yields nothing but the tokens of licensed trees with the symbol at their root. -/
theorem yields_symbol_iff :
    grammar.Yields [.symbol name] tokens ↔ ∃ tree : Tree, tree.Derives grammar name tokens := by
  constructor
  · intro yields
    cases yields with
    | @symbol _ _ tree licensed rest =>
        cases rest
        exact ⟨tree, rfl, (List.append_nil _).symm, licensed⟩
  · rintro ⟨tree, rfl, rfl, licensed⟩
    simpa using Yields.symbol licensed .nil

/-- A symbol yields what one of its alternatives yields. -/
theorem Yields.of_alternative {alternative : Alternative}
    (registered : alternative ∈ grammar.alternatives name)
    (yields : grammar.Yields alternative.form tokens) : grammar.Yields [.symbol name] tokens := by
  rw [yields_symbol_iff]
  cases alternative with
  | token token =>
      cases yields with
      | token _ rest =>
          cases rest
          exact ⟨.leaf name token, rfl, rfl, token_mem_alternatives.mp registered⟩
  | pair expansion =>
      have pair : grammar.Yields ([.symbol expansion.left] ++ [.symbol expansion.right]) tokens :=
        yields
      obtain ⟨leftTokens, rightTokens, rfl, leftYields, rightYields⟩ := pair.exists_cut
      obtain ⟨left, leftRoot, rfl, leftLicensed⟩ := yields_symbol_iff.mp leftYields
      obtain ⟨right, rightRoot, rfl, rightLicensed⟩ := yields_symbol_iff.mp rightYields
      refine ⟨.node name left right, rfl, rfl, ?_, leftLicensed, rightLicensed⟩
      rw [leftRoot, rightRoot]
      exact pair_mem_alternatives.mp registered

/-- What is yielded after a step was yielded before it. -/
theorem Yields.of_step (step : grammar.Step first next) (yields : grammar.Yields next tokens) :
    grammar.Yields first tokens := by
  cases step with
  | expand before after registered =>
      rw [List.append_assoc] at yields
      obtain ⟨left, others, rfl, beforeYields, othersYield⟩ := yields.exists_cut
      obtain ⟨middle, right, rfl, formYields, afterYields⟩ := othersYield.exists_cut
      exact beforeYields.append ((Yields.of_alternative registered formYields).append afterYields)

/-- A form yields every sentence that it leads to. -/
theorem Leads.yields (leads : grammar.Leads form (tokens.map .token)) :
    grammar.Yields form tokens := by
  generalize stop : tokens.map Piece.token = last at leads
  induction leads with
  | refl form =>
      rw [← stop]
      exact yields_tokens tokens
  | step step _ inductionHypothesis => exact (inductionHypothesis stop).of_step step

/-- A symbol leads to the sentences over which there are licensed trees with the symbol at their
root, and to no others. -/
theorem leads_iff (grammar : Grammar) (symbol : Symbol) (tokens : List Token) :
    grammar.Leads [.symbol symbol] (tokens.map .token) ↔
      ∃ tree : Tree, tree.Derives grammar symbol tokens := by
  constructor
  · intro leads
    exact yields_symbol_iff.mp leads.yields
  · rintro ⟨tree, derives⟩
    exact ((bijOn_leftmostForms grammar symbol tokens).mapsTo derives).leads

end ChartParser.Grammar
