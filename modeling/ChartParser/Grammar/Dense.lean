import ChartParser.Grammar.History

/-!
# Dense grammars

In a dense grammar each of some names expands to one token and to every ordered
pair of the names.
-/

namespace ChartParser.Grammar

/-- Every rule that expands one of some names to a token or to two of the names. -/
def denseRules (names : List Symbol) (token : Token) : List Registration :=
  names.flatMap fun name =>
    .terminal name token ::
      names.flatMap fun left => names.map fun right => .binary name left right

/-- The grammar of these rules. -/
def dense (start : Symbol) (names : List Symbol) (token : Token) : Grammar :=
  (empty start).registerAll (denseRules names token)

variable {names : List Symbol} {token : Token}

/-- Each of the names expands to the token. -/
@[simp] theorem terminal_mem_denseRules {name : Symbol} {word : Token} :
    .terminal name word ∈ denseRules names token ↔ name ∈ names ∧ word = token := by
  simp only [denseRules, List.mem_flatMap, List.mem_cons, List.mem_map, Registration.terminal.injEq,
    reduceCtorEq, and_false, exists_false, or_false]
  constructor
  · rintro ⟨_, member, rfl, rfl⟩
    exact ⟨member, rfl⟩
  · rintro ⟨member, rfl⟩
    exact ⟨name, member, rfl, rfl⟩

/-- Each of the names expands to any two of them. -/
@[simp] theorem binary_mem_denseRules {name left right : Symbol} :
    .binary name left right ∈ denseRules names token ↔
      name ∈ names ∧ left ∈ names ∧ right ∈ names := by
  simp only [denseRules, List.mem_flatMap, List.mem_cons, List.mem_map, Registration.binary.injEq,
    reduceCtorEq, false_or]
  constructor
  · rintro ⟨_, member, _, leftMember, _, rightMember, rfl, rfl, rfl⟩
    exact ⟨member, leftMember, rightMember⟩
  · rintro ⟨member, leftMember, rightMember⟩
    exact ⟨name, member, left, leftMember, right, rightMember, rfl, rfl, rfl⟩

end ChartParser.Grammar
