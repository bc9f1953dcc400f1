import ChartParser.Derivation.Licensed
import ChartParser.Sampling.Derivation

/-!
# What is drawn

`Drawing` says what comes of drawing a derivation, one constructor for every way in
which it can go. Only registered alternatives are chosen, so a derivation that is
drawn is licensed, and each of its levels uses up one of those that are allowed.
-/

namespace ChartParser.Grammar

variable {Source : Type}

/-- What comes of drawing a derivation of a symbol with at most so many levels, out of a limit. -/
inductive Drawing (grammar : Grammar) (choose : Chooser Source) (limit : Nat) :
    Nat → Symbol → Source → Draw Source → Prop where
  | tooDeep (symbol : Symbol) (source : Source) :
      Drawing grammar choose limit 0 symbol source ⟨.error (.tooDeep limit), source⟩
  | undefined {levels : Nat} {symbol : Symbol} (source : Source)
      (undefined : grammar.alternatives symbol = []) :
      Drawing grammar choose limit (levels + 1) symbol source
        ⟨.error (.undefinedSymbol symbol), source⟩
  | unchosen {levels : Nat} {symbol : Symbol} {source next : Source}
      {defined : 0 < (grammar.alternatives symbol).length}
      (chosen : choose source (grammar.alternatives symbol).length defined = (none, next)) :
      Drawing grammar choose limit (levels + 1) symbol source ⟨.error .noAcceptableWord, next⟩
  | token {levels : Nat} {symbol : Symbol} {source next : Source}
      {defined : 0 < (grammar.alternatives symbol).length}
      {choice : Fin (grammar.alternatives symbol).length} {token : Token}
      (chosen : choose source (grammar.alternatives symbol).length defined = (some choice, next))
      (picked : (grammar.alternatives symbol).get choice = .token token) :
      Drawing grammar choose limit (levels + 1) symbol source ⟨.ok (.leaf symbol token), next⟩
  | leftFailed {levels : Nat} {symbol : Symbol} {source next rest : Source}
      {defined : 0 < (grammar.alternatives symbol).length}
      {choice : Fin (grammar.alternatives symbol).length} {expansion : Expansion}
      {failure : SamplingFailure}
      (chosen : choose source (grammar.alternatives symbol).length defined = (some choice, next))
      (picked : (grammar.alternatives symbol).get choice = .pair expansion)
      (leftFailed : Drawing grammar choose limit levels expansion.left next
        ⟨.error failure, rest⟩) :
      Drawing grammar choose limit (levels + 1) symbol source ⟨.error failure, rest⟩
  | rightFailed {levels : Nat} {symbol : Symbol} {source next between rest : Source}
      {defined : 0 < (grammar.alternatives symbol).length}
      {choice : Fin (grammar.alternatives symbol).length} {expansion : Expansion} {left : Tree}
      {failure : SamplingFailure}
      (chosen : choose source (grammar.alternatives symbol).length defined = (some choice, next))
      (picked : (grammar.alternatives symbol).get choice = .pair expansion)
      (leftDrawn : Drawing grammar choose limit levels expansion.left next ⟨.ok left, between⟩)
      (rightFailed : Drawing grammar choose limit levels expansion.right between
        ⟨.error failure, rest⟩) :
      Drawing grammar choose limit (levels + 1) symbol source ⟨.error failure, rest⟩
  | pair {levels : Nat} {symbol : Symbol} {source next between rest : Source}
      {defined : 0 < (grammar.alternatives symbol).length}
      {choice : Fin (grammar.alternatives symbol).length} {expansion : Expansion}
      {left right : Tree}
      (chosen : choose source (grammar.alternatives symbol).length defined = (some choice, next))
      (picked : (grammar.alternatives symbol).get choice = .pair expansion)
      (leftDrawn : Drawing grammar choose limit levels expansion.left next ⟨.ok left, between⟩)
      (rightDrawn : Drawing grammar choose limit levels expansion.right between
        ⟨.ok right, rest⟩) :
      Drawing grammar choose limit (levels + 1) symbol source
        ⟨.ok (.node symbol left right), rest⟩

variable {grammar : Grammar} {choose : Chooser Source} {limit levels : Nat} {symbol : Symbol}
  {source next rest : Source} {draw : Draw Source} {tree : Tree}

/-- Whatever is drawn is drawn in one of these ways. -/
theorem exists_drawing (grammar : Grammar) (choose : Chooser Source) (limit levels : Nat)
    (symbol : Symbol) (source : Source) :
    ∃ draw, grammar.Drawing choose limit levels symbol source draw := by
  induction levels generalizing symbol source with
  | zero => exact ⟨_, .tooDeep symbol source⟩
  | succ levels inductionHypothesis =>
      by_cases defined : 0 < (grammar.alternatives symbol).length
      · rcases chosen : choose source (grammar.alternatives symbol).length defined with
          ⟨_ | choice, next⟩
        · exact ⟨_, .unchosen chosen⟩
        · cases picked : (grammar.alternatives symbol).get choice with
          | token token => exact ⟨_, .token chosen picked⟩
          | pair expansion =>
              obtain ⟨⟨failure | left, between⟩, leftDrawing⟩ :=
                inductionHypothesis expansion.left next
              · exact ⟨_, .leftFailed chosen picked leftDrawing⟩
              · obtain ⟨⟨failure | right, rest⟩, rightDrawing⟩ :=
                  inductionHypothesis expansion.right between
                · exact ⟨_, .rightFailed chosen picked leftDrawing rightDrawing⟩
                · exact ⟨_, .pair chosen picked leftDrawing rightDrawing⟩
      · have nothing := List.eq_nil_of_length_eq_zero (Nat.eq_zero_of_not_pos defined)
        exact ⟨_, .undefined source nothing⟩

/-- Once an alternative has been chosen, what it puts below the symbol is drawn. -/
theorem drawWithin_of_chosen {defined : 0 < (grammar.alternatives symbol).length}
    {choice : Fin (grammar.alternatives symbol).length}
    (chosen : choose source (grammar.alternatives symbol).length defined = (some choice, next)) :
    grammar.drawWithin choose limit (levels + 1) symbol source =
      drawAlternative (grammar.drawWithin choose limit levels) symbol
        ((grammar.alternatives symbol).get choice) next := by
  simp only [drawWithin, dif_pos defined, chosen, Fin.getElem_fin, List.get_eq_getElem]

/-- Drawing comes to nothing else. -/
theorem Drawing.drawWithin_eq (drawing : grammar.Drawing choose limit levels symbol source draw) :
    grammar.drawWithin choose limit levels symbol source = draw := by
  induction drawing with
  | tooDeep => rfl
  | undefined source undefined => simp [drawWithin, undefined]
  | @unchosen _ _ _ _ defined chosen => simp only [drawWithin, dif_pos defined, chosen]
  | token chosen picked => rw [drawWithin_of_chosen chosen, picked, drawAlternative]
  | leftFailed chosen picked _ leftHypothesis =>
      simp only [drawWithin_of_chosen chosen, picked, drawAlternative, leftHypothesis]
  | rightFailed chosen picked _ _ leftHypothesis rightHypothesis
  | pair chosen picked _ _ leftHypothesis rightHypothesis =>
      simp only [drawWithin_of_chosen chosen, picked, drawAlternative, leftHypothesis,
        rightHypothesis]

/-- What comes of drawing is what one of these ways leads to. -/
theorem drawWithin_eq_iff :
    grammar.drawWithin choose limit levels symbol source = draw ↔
      grammar.Drawing choose limit levels symbol source draw := by
  constructor
  · rintro rfl
    obtain ⟨draw, drawing⟩ := exists_drawing grammar choose limit levels symbol source
    rwa [drawing.drawWithin_eq]
  · exact Drawing.drawWithin_eq

/-- Whatever the choices are, a derivation that is drawn from a symbol has that symbol at its root,
no more levels than are allowed, and rules of the grammar only. -/
theorem drawWithin_eq_ok
    (drawn : grammar.drawWithin choose limit levels symbol source = ⟨.ok tree, rest⟩) :
    tree.symbol = symbol ∧ tree.depth ≤ levels ∧ tree.Licensed grammar := by
  have drawing := drawWithin_eq_iff.mp drawn
  clear drawn
  -- The induction is on the way in which the derivation has been drawn.
  generalize outcome : Draw.mk (.ok tree) rest = draw at drawing
  induction drawing generalizing tree rest with
  | tooDeep | undefined | unchosen | leftFailed | rightFailed => cases outcome
  | @token levels symbol _ _ _ choice token chosen picked =>
      cases outcome
      have registered := List.get_mem (grammar.alternatives symbol) choice
      rw [picked, token_mem_alternatives] at registered
      exact ⟨rfl, Nat.le_add_left 1 levels, registered⟩
  | @pair levels symbol _ _ _ _ _ choice expansion _ _ chosen picked _ _ leftHypothesis
      rightHypothesis =>
      cases outcome
      have registered := List.get_mem (grammar.alternatives symbol) choice
      rw [picked, pair_mem_alternatives] at registered
      obtain ⟨leftSymbol, leftDepth, leftLicensed⟩ := leftHypothesis rfl
      obtain ⟨rightSymbol, rightDepth, rightLicensed⟩ := rightHypothesis rfl
      refine ⟨rfl, ?_, ?_, leftLicensed, rightLicensed⟩
      · simp only [Tree.depth]
        omega
      · rwa [leftSymbol, rightSymbol]

end ChartParser.Grammar
