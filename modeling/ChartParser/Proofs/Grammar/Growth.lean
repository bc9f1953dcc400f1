import ChartParser.Grammar.History

/-!
# Growth of a grammar

Registrations never take a name away from a lookup and never change the order of
those that are there: new names come last. A grammar `GrowsInto` another one when
all its lookups are the beginnings of the other's.
-/

namespace ChartParser.Grammar

/-- Whatever the lookups of the smaller grammar find, those of the larger one find first. -/
structure GrowsInto (smaller larger : Grammar) : Prop where
  namesForToken : ∀ token, smaller.namesForToken token <+: larger.namesForToken token
  namesForPair : ∀ left right, smaller.namesForPair left right <+: larger.namesForPair left right

variable {smaller middle larger : Grammar}

/-- A grammar without further registrations finds what it finds. -/
theorem GrowsInto.refl (grammar : Grammar) : grammar.GrowsInto grammar :=
  ⟨fun _ => List.prefix_refl _, fun _ _ => List.prefix_refl _⟩

/-- Growth in two goes is growth. -/
theorem GrowsInto.trans (first : smaller.GrowsInto middle) (second : middle.GrowsInto larger) :
    smaller.GrowsInto larger where
  namesForToken := fun token => (first.namesForToken token).trans (second.namesForToken token)
  namesForPair := fun left right =>
    (first.namesForPair left right).trans (second.namesForPair left right)

/-- A grammar grows by a registration. -/
theorem growsInto_register (grammar : Grammar) (registration : Registration) :
    grammar.GrowsInto (grammar.register registration) := by
  cases registration with
  | binary name left right =>
      exact ⟨fun _ => List.prefix_refl _, fun _ _ => Table.listed_prefix_appendNew ..⟩
  | terminal name token =>
      exact ⟨fun _ => Table.listed_prefix_appendNew .., fun _ _ => List.prefix_refl _⟩

/-- A grammar grows by registrations. -/
theorem growsInto_registerAll (grammar : Grammar) (registrations : List Registration) :
    grammar.GrowsInto (grammar.registerAll registrations) := by
  induction registrations generalizing grammar with
  | nil => exact .refl grammar
  | cons registration registrations inductionHypothesis =>
      exact (growsInto_register grammar registration).trans
        (inductionHypothesis (grammar.register registration))

/-- A registration does not touch the start symbol. -/
@[simp] theorem start_register (grammar : Grammar) (registration : Registration) :
    (grammar.register registration).start = grammar.start := by
  cases registration <;> rfl

/-- Registrations do not touch the start symbol. -/
@[simp] theorem start_registerAll (grammar : Grammar) (registrations : List Registration) :
    (grammar.registerAll registrations).start = grammar.start := by
  induction registrations generalizing grammar with
  | nil => rfl
  | cons registration registrations inductionHypothesis =>
      exact (inductionHypothesis (grammar.register registration)).trans
        (start_register grammar registration)

end ChartParser.Grammar
