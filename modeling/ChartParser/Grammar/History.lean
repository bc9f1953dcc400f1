import ChartParser.Grammar.Basic

/-!
# Histories of a grammar

Every grammar comes from an empty one by a history of changes. The tables of a
grammar say about its history what was registered under a name and in which
order; the lookups say which names were registered for a right side, and which
of them first.
-/

namespace ChartParser

/-- One change to a grammar. -/
inductive Change where
  | register (registration : Registration)
  | startWith (start : Symbol)
deriving DecidableEq, Repr

/-- The rule that a change registers, if it registers one. -/
def Change.registration? : Change → Option Registration
  | register registration => some registration
  | startWith _ => none

namespace Registration

/-- The name that a rule expands. -/
def name : Registration → Symbol
  | binary name _ _ => name
  | terminal name _ => name

/-- What a rule expands its name to. -/
def rightSide : Registration → Alternative
  | binary _ left right => .pair ⟨left, right⟩
  | terminal _ token => .token token

/-- Whether a rule expands its name to two symbols. -/
def isBinary : Registration → Bool
  | binary _ _ _ => true
  | terminal _ _ => false

/-- The binary expansion that a rule gives to a name. -/
def expansionOf (name : Symbol) : Registration → Option Expansion
  | binary other left right => if other = name then some ⟨left, right⟩ else none
  | terminal _ _ => none

/-- The token that a rule gives to a name. -/
def tokenOf (name : Symbol) : Registration → Option Token
  | terminal other token => if other = name then some token else none
  | binary _ _ _ => none

end Registration

namespace Grammar

/-- Make one change. -/
def change (grammar : Grammar) : Change → Grammar
  | .register registration => grammar.register registration
  | .startWith start => grammar.withStart start

/-- Make changes one after the other. -/
def changeAll (grammar : Grammar) (history : List Change) : Grammar :=
  history.foldl change grammar

/-- Changes made in two goes are made one after the other. -/
theorem changeAll_append (grammar : Grammar) (first second : List Change) :
    grammar.changeAll (first ++ second) = (grammar.changeAll first).changeAll second := by
  simp only [changeAll, List.foldl_append]

/-- Rules are registered one after the other as changes are made. -/
theorem registerAll_eq_changeAll (grammar : Grammar) (registrations : List Registration) :
    grammar.registerAll registrations = grammar.changeAll (registrations.map .register) := by
  rw [registerAll, changeAll, List.foldl_map]
  rfl

/-- A grammar that comes from an empty one by some history. -/
def Reachable (grammar : Grammar) : Prop :=
  ∃ start history, grammar = (empty start).changeAll history

/-- One more binary rule stands at the end of its name's expansions. -/
theorem expansions_register (grammar : Grammar) (registration : Registration) (name : Symbol) :
    (grammar.register registration).expansions name =
      grammar.expansions name ++ (registration.expansionOf name).toList := by
  cases registration with
  | binary other left right =>
      simp only [register, addBinary, expansions, Table.listed_append, Registration.expansionOf]
      split <;> simp
  | terminal other token => simp [register, addTerminal, expansions, Registration.expansionOf]

/-- One more terminal rule stands at the end of its name's tokens. -/
theorem tokensOf_register (grammar : Grammar) (registration : Registration) (name : Symbol) :
    (grammar.register registration).tokensOf name =
      grammar.tokensOf name ++ (registration.tokenOf name).toList := by
  cases registration with
  | binary other left right => simp [register, addBinary, tokensOf, Registration.tokenOf]
  | terminal other token =>
      simp only [register, addTerminal, tokensOf, Table.listed_append, Registration.tokenOf]
      split <;> simp

/-- Every registration of a name adds one alternative, also when it has been made before. -/
theorem length_alternatives_register (grammar : Grammar) (registration : Registration)
    (name : Symbol) :
    ((grammar.register registration).alternatives name).length =
      (grammar.alternatives name).length + if registration.name = name then 1 else 0 := by
  rw [alternatives, alternatives, expansions_register, tokensOf_register]
  cases registration with
  | binary other left right =>
      by_cases same : other = name <;>
        simp [Registration.expansionOf, Registration.tokenOf, Registration.name, same]
      omega
  | terminal other token =>
      by_cases same : other = name <;>
        simp [Registration.expansionOf, Registration.tokenOf, Registration.name, same,
          Nat.add_assoc]

/-- A change of a reachable grammar gives a reachable one. -/
theorem Reachable.change {grammar : Grammar} (reachable : grammar.Reachable) (change : Change) :
    (grammar.change change).Reachable := by
  obtain ⟨start, history, rfl⟩ := reachable
  exact ⟨start, history ++ [change], by simp [changeAll]⟩

/-- A reachable grammar stays reachable with another start symbol. -/
theorem Reachable.withStart {grammar : Grammar} (reachable : grammar.Reachable) (start : Symbol) :
    (grammar.withStart start).Reachable :=
  reachable.change (.startWith start)

end Grammar

end ChartParser
