import ChartParser.Derivation.Licensed
import ChartParser.Derivation.Sentential
import Mathlib.Data.Set.Function

/-!
# Trees and leftmost derivations

A tree tells in which order its rules are used when the leftmost symbol is
always expanded first. `leftmostForms` lists the forms on this way, and
`bijOn_leftmostForms` says that every leftmost derivation of a sentence is the
way of exactly one licensed tree.
-/

namespace ChartParser

namespace Tree

/-- The forms that a tree goes through, with tokens before it and pieces after it, as long as one
of its symbols is left to expand. -/
def formsWithin (before : List Token) (after : SententialForm) : Tree → List SententialForm
  | leaf symbol _ => [before.map .token ++ .symbol symbol :: after]
  | node symbol left right =>
      (before.map .token ++ .symbol symbol :: after) ::
        (left.formsWithin before (.symbol right.symbol :: after) ++
          right.formsWithin (before ++ left.leaves) after)

/-- The forms of the leftmost derivation of a tree, from the symbol at its root to its tokens. -/
def leftmostForms (tree : Tree) : List SententialForm :=
  tree.formsWithin [] [] ++ [tree.leaves.map .token]

variable {tree first second : Tree} {before : List Token} {after : SententialForm}

/-- The first form has the symbol at the root. -/
theorem exists_formsWithin_eq_cons (tree : Tree) (before : List Token) (after : SententialForm) :
    ∃ later, tree.formsWithin before after =
      (before.map .token ++ .symbol tree.symbol :: after) :: later := by
  cases tree with
  | leaf symbol token => exact ⟨[], rfl⟩
  | node symbol left right => exact ⟨_, rfl⟩

/-- The first form of a tree tells its symbol and what comes after it. -/
theorem eq_of_formsWithin_append {otherAfter : SententialForm}
    {rest otherRest : List SententialForm}
    (same : first.formsWithin before after ++ rest =
      second.formsWithin before otherAfter ++ otherRest) :
    first.symbol = second.symbol ∧ after = otherAfter := by
  obtain ⟨later, forms⟩ := exists_formsWithin_eq_cons first before after
  obtain ⟨otherLater, otherForms⟩ := exists_formsWithin_eq_cons second before otherAfter
  rw [forms, otherForms, List.cons_append, List.cons_append, List.cons.injEq,
    List.append_cancel_left_eq, List.cons.injEq, Piece.symbol.injEq] at same
  exact same.1

/-- The forms of a tree, up to the one that has its tokens, tell the tree, and where its forms
end among others. -/
theorem formsWithin_cancel {firstLater secondLater : List SententialForm}
    (same : first.formsWithin before after ++
        ((before ++ first.leaves).map .token ++ after) :: firstLater =
      second.formsWithin before after ++
        ((before ++ second.leaves).map .token ++ after) :: secondLater) :
    first = second ∧ firstLater = secondLater := by
  induction first generalizing second before after firstLater secondLater with
  | leaf symbol token =>
      cases second with
      | leaf otherSymbol otherToken => simp_all [formsWithin, leaves]
      | node otherSymbol left right =>
          obtain ⟨later, forms⟩ :=
            exists_formsWithin_eq_cons left before (.symbol right.symbol :: after)
          simp [formsWithin, forms, leaves] at same
  | node symbol left right leftHypothesis rightHypothesis =>
      cases second with
      | leaf otherSymbol otherToken =>
          obtain ⟨later, forms⟩ :=
            exists_formsWithin_eq_cons left before (.symbol right.symbol :: after)
          simp [formsWithin, forms, leaves] at same
      | node otherSymbol otherLeft otherRight =>
          simp only [formsWithin, List.cons_append, List.append_assoc, leaves, List.cons.injEq,
            List.append_cancel_left_eq, Piece.symbol.injEq, and_true] at same
          obtain ⟨roots, children⟩ := same
          -- What comes after the left children begins with the symbols of the right children.
          have rightSymbols : right.symbol = otherRight.symbol := by
            simpa using (eq_of_formsWithin_append children).2
          obtain ⟨rightForms, rightEq⟩ :=
            exists_formsWithin_eq_cons right (before ++ left.leaves) after
          obtain ⟨otherRightForms, otherRightEq⟩ :=
            exists_formsWithin_eq_cons otherRight (before ++ otherLeft.leaves) after
          rw [← List.append_assoc before, ← List.append_assoc before] at children
          have split := children
          rw [rightEq, otherRightEq, rightSymbols] at split
          obtain ⟨rfl, _⟩ := leftHypothesis split
          rw [rightSymbols, List.append_cancel_left_eq] at children
          obtain ⟨rfl, laters⟩ := rightHypothesis children
          exact ⟨by rw [roots], laters⟩

/-- Different trees have different leftmost derivations. -/
theorem leftmostForms_injective : Function.Injective leftmostForms := by
  intro first second same
  have forms : first.formsWithin [] [] ++ [([] ++ first.leaves).map .token ++ []] =
      second.formsWithin [] [] ++ [([] ++ second.leaves).map .token ++ []] := by
    simpa [leftmostForms] using same
  exact (formsWithin_cancel forms).1

end Tree

namespace Grammar

variable {grammar : Grammar} {name : Symbol} {before tokens : List Token}
  {after last next : SententialForm} {forms : List SententialForm}

/-- The leftmost symbol of a form is in one place. -/
theorem leftmost_symbol_unique {otherName : Symbol} {otherBefore : List Token}
    {otherAfter : SententialForm}
    (same : before.map .token ++ .symbol name :: after =
      otherBefore.map .token ++ .symbol otherName :: otherAfter) :
    before = otherBefore ∧ name = otherName ∧ after = otherAfter := by
  induction before generalizing otherBefore with
  | nil =>
      cases otherBefore with
      | nil => simpa using same
      | cons token otherBefore => simp at same
  | cons token before inductionHypothesis =>
      cases otherBefore with
      | nil => simp at same
      | cons otherToken otherBefore =>
          simp only [List.map_cons, List.cons_append, List.cons.injEq, Piece.token.injEq] at same
          obtain ⟨rfl, rest⟩ := same
          obtain ⟨rfl, others⟩ := inductionHypothesis rest
          exact ⟨rfl, others⟩

/-- A leftmost step expands the leftmost symbol. -/
theorem LeftmostStep.exists_alternative
    (step : grammar.LeftmostStep (before.map .token ++ .symbol name :: after) next) :
    ∃ alternative ∈ grammar.alternatives name,
      next = before.map .token ++ alternative.form ++ after := by
  generalize start : before.map Piece.token ++ .symbol name :: after = first at step
  cases step with
  | @expand otherBefore otherAfter otherName alternative registered =>
      obtain ⟨rfl, rfl, rfl⟩ := leftmost_symbol_unique start
      exact ⟨alternative, registered, rfl⟩

/-- A form without symbols is not expanded. -/
theorem LeftmostDerivation.of_tokens
    (derivation : grammar.LeftmostDerivation (tokens.map .token) last forms) :
    last = tokens.map .token ∧ forms = [tokens.map .token] := by
  generalize start : tokens.map Piece.token = first at derivation
  cases derivation with
  | refl => exact ⟨rfl, rfl⟩
  | step step rest =>
      cases step with
      | @expand before after name alternative registered =>
          have member : Piece.symbol name ∈ tokens.map Piece.token := by simp [start]
          simp at member

/-- A licensed tree is expanded in the place of its symbol, before the rest of a derivation. -/
theorem LeftmostDerivation.expandTree {tree : Tree} (licensed : tree.Licensed grammar)
    (rest : grammar.LeftmostDerivation ((before ++ tree.leaves).map .token ++ after) last forms) :
    grammar.LeftmostDerivation (before.map .token ++ .symbol tree.symbol :: after) last
      (tree.formsWithin before after ++ forms) := by
  induction tree generalizing before after forms with
  | leaf symbol token =>
      have step := LeftmostStep.expand before after (token_mem_alternatives.mpr licensed)
      refine .step step ?_
      simpa [Alternative.form, Tree.leaves] using rest
  | node symbol left right leftHypothesis rightHypothesis =>
      obtain ⟨registered, leftLicensed, rightLicensed⟩ := licensed
      have step := LeftmostStep.expand before after (pair_mem_alternatives.mpr registered)
      rw [Tree.leaves, ← List.append_assoc] at rest
      have children := leftHypothesis leftLicensed (rightHypothesis rightLicensed rest)
      refine .step step ?_
      simpa [Alternative.form] using children

/-- A derivation of a sentence from a form with symbols begins by expanding the leftmost one. -/
theorem LeftmostDerivation.exists_first
    (derivation : grammar.LeftmostDerivation (before.map .token ++ .symbol name :: after)
      (tokens.map .token) forms) :
    ∃ alternative ∈ grammar.alternatives name, ∃ later : List SententialForm,
      forms = (before.map .token ++ .symbol name :: after) :: later ∧
      grammar.LeftmostDerivation (before.map .token ++ alternative.form ++ after)
        (tokens.map .token) later := by
  generalize start : before.map Piece.token ++ .symbol name :: after = first at derivation
  generalize stop : tokens.map Piece.token = last at derivation
  cases derivation with
  | refl =>
      have member : Piece.symbol name ∈ tokens.map Piece.token := by simp [stop, ← start]
      simp at member
  | @step first next last later step rest =>
      subst start stop
      obtain ⟨alternative, registered, rfl⟩ := step.exists_alternative
      exact ⟨alternative, registered, later, rfl, rest⟩

/-- A derivation of a sentence expands the leftmost symbol by some licensed tree before it goes on
with what comes after. -/
theorem LeftmostDerivation.exists_tree
    (derivation : grammar.LeftmostDerivation (before.map .token ++ .symbol name :: after)
      (tokens.map .token) forms) :
    ∃ (tree : Tree) (rest : List SententialForm), tree.symbol = name ∧ tree.Licensed grammar ∧
      forms = tree.formsWithin before after ++ rest ∧
      grammar.LeftmostDerivation ((before ++ tree.leaves).map .token ++ after)
        (tokens.map .token) rest := by
  -- The right child of a node comes after its left child, in what is left of the derivation.
  induction length : forms.length using Nat.strongRecOn generalizing name before after forms with
  | ind count inductionHypothesis =>
      subst length
      obtain ⟨alternative, registered, later, rfl, others⟩ := derivation.exists_first
      cases alternative with
      | token token =>
          refine ⟨.leaf name token, later, rfl, token_mem_alternatives.mp registered, rfl, ?_⟩
          simpa [Alternative.form, Tree.leaves] using others
      | pair expansion =>
          simp only [Alternative.form, List.append_assoc, List.cons_append,
            List.nil_append] at others
          obtain ⟨left, leftRest, leftRoot, leftLicensed, rfl, leftOthers⟩ :=
            inductionHypothesis _ (Nat.lt_succ_self _) others rfl
          have shorter : leftRest.length < (left.formsWithin before
              (.symbol expansion.right :: after) ++ leftRest).length + 1 := by
            rw [List.length_append]
            omega
          obtain ⟨right, rest, rightRoot, rightLicensed, rfl, rightOthers⟩ :=
            inductionHypothesis _ shorter leftOthers rfl
          refine ⟨.node name left right, rest, rfl, ⟨?_, leftLicensed, rightLicensed⟩, ?_, ?_⟩
          · rw [leftRoot, rightRoot]
            exact pair_mem_alternatives.mp registered
          · rw [Tree.formsWithin, rightRoot, List.cons_append, List.append_assoc]
          · rwa [Tree.leaves, ← List.append_assoc]

/-- The leftmost derivations of a sentence from a symbol are those of the licensed trees over the
sentence with the symbol at their root, each of one tree. -/
theorem bijOn_leftmostForms (grammar : Grammar) (symbol : Symbol) (tokens : List Token) :
    Set.BijOn Tree.leftmostForms {tree | tree.Derives grammar symbol tokens}
      {forms | grammar.LeftmostDerivation [.symbol symbol] (tokens.map .token) forms} := by
  refine ⟨?_, Tree.leftmostForms_injective.injOn, ?_⟩
  · rintro tree ⟨rfl, rfl, licensed⟩
    have rest : grammar.LeftmostDerivation (([] ++ tree.leaves).map .token ++ [])
        (tree.leaves.map .token) [tree.leaves.map .token] := by
      simpa using LeftmostDerivation.refl (tree.leaves.map .token)
    exact rest.expandTree licensed
  · intro forms derivation
    have whole : grammar.LeftmostDerivation (([] : List Token).map .token ++ [.symbol symbol])
        (tokens.map .token) forms := derivation
    obtain ⟨tree, rest, root, licensed, rfl, remainder⟩ := whole.exists_tree
    rw [List.nil_append, List.append_nil] at remainder
    obtain ⟨leaves, rfl⟩ := remainder.of_tokens
    have same : tokens = tree.leaves :=
      (List.map_inj_right fun _ _ equal => Piece.token.inj equal).mp leaves
    exact ⟨tree, ⟨root, same.symm, licensed⟩, rfl⟩

end Grammar

end ChartParser
