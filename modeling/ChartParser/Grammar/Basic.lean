import ChartParser.Grammar.Table

/-!
# Grammars in Chomsky normal form

A name expands either to two names or to one token. A grammar keeps every
registration under its name, in order and with repetitions, and beside it the
names that a pair of symbols or a token can come from, each name once.
-/

namespace ChartParser

/-- The name of a nonterminal. Any text is a symbol. -/
abbrev Symbol := String

/-- A word of a sentence. Tokens and symbols are never mixed up, even when they are spelled
alike. -/
abbrev Token := String

/-- The two symbols on the right of a binary rule. -/
structure Expansion where
  left : Symbol
  right : Symbol
deriving DecidableEq, Repr

namespace Expansion

/-- Expansions are ordered by their left symbol, then by their right symbol. -/
instance : Ord Expansion where
  compare := compareLex (compareOn left) (compareOn right)

instance : Std.TransOrd Expansion :=
  inferInstanceAs (Std.TransCmp (compareLex (compareOn left) (compareOn right)))

instance : Std.LawfulEqOrd Expansion where
  compare_self := by
    intro expansion
    exact Std.ReflCmp.compare_self
  eq_of_compare := by
    intro first second equal
    have parts : compareLex (compareOn left) (compareOn right) first second = .eq := equal
    rw [compareLex_eq_eq] at parts
    have lefts : first.left = second.left := Std.LawfulEqCmp.eq_of_compare parts.1
    have rights : first.right = second.right := Std.LawfulEqCmp.eq_of_compare parts.2
    cases first
    cases second
    simp_all

end Expansion

/-- One rule as it is given to a grammar. -/
inductive Registration where
  | binary (name left right : Symbol)
  | terminal (name : Symbol) (token : Token)
deriving DecidableEq, Repr

/-- One thing that a name can be expanded to. -/
inductive Alternative where
  | pair (expansion : Expansion)
  | token (token : Token)
deriving DecidableEq, Repr

/-- A grammar with its start symbol and its lookups from right sides to names. Under a name stands
what it expands to, in order of registration and with repetitions. A lookup finds every name once,
the first registered first. -/
structure Grammar where
  start : Symbol
  rules : Table Symbol Expansion
  terminals : Table Symbol Token
  byPair : Table Expansion Symbol
  byToken : Table Token Symbol
deriving DecidableEq

namespace Grammar

/-- The start symbol of a grammar that names no other. -/
def defaultStart : Symbol := "S"

/-- The grammar without rules. -/
def empty (start : Symbol) : Grammar where
  start := start
  rules := .empty
  terminals := .empty
  byPair := .empty
  byToken := .empty

instance : Inhabited Grammar := ⟨empty defaultStart⟩

/-- Replace the start symbol and keep every rule. -/
def withStart (grammar : Grammar) (start : Symbol) : Grammar :=
  { grammar with start }

/-- Register that a name expands to two symbols. -/
def addBinary (grammar : Grammar) (name left right : Symbol) : Grammar :=
  { grammar with
    rules := grammar.rules.append name ⟨left, right⟩
    byPair := grammar.byPair.appendNew ⟨left, right⟩ name }

/-- Register that a name expands to a token. -/
def addTerminal (grammar : Grammar) (name : Symbol) (token : Token) : Grammar :=
  { grammar with
    terminals := grammar.terminals.append name token
    byToken := grammar.byToken.appendNew token name }

/-- Register one rule of either kind. -/
def register (grammar : Grammar) : Registration → Grammar
  | .binary name left right => grammar.addBinary name left right
  | .terminal name token => grammar.addTerminal name token

/-- Register rules one after the other. -/
def registerAll (grammar : Grammar) (registrations : List Registration) : Grammar :=
  registrations.foldl register grammar

/-- The binary expansions of a name, repetitions included. -/
def expansions (grammar : Grammar) (name : Symbol) : List Expansion :=
  grammar.rules.listed name

/-- The tokens of a name, repetitions included. -/
def tokensOf (grammar : Grammar) (name : Symbol) : List Token :=
  grammar.terminals.listed name

/-- Every name that expands to the pair, once each. -/
def namesForPair (grammar : Grammar) (left right : Symbol) : List Symbol :=
  grammar.byPair.listed ⟨left, right⟩

/-- Every name that expands to the token, once each. -/
def namesForToken (grammar : Grammar) (token : Token) : List Symbol :=
  grammar.byToken.listed token

/-- Everything that a name can be expanded to, the binary expansions first, repetitions
included. -/
def alternatives (grammar : Grammar) (name : Symbol) : List Alternative :=
  (grammar.expansions name).map .pair ++ (grammar.tokensOf name).map .token

/-- Whether no rule of either kind has been registered. -/
def isEmpty (grammar : Grammar) : Bool :=
  grammar.rules.isEmpty && grammar.terminals.isEmpty

/-- A pair is an alternative of the names that it is registered under. -/
@[simp] theorem pair_mem_alternatives {grammar : Grammar} {name : Symbol}
    {expansion : Expansion} :
    .pair expansion ∈ grammar.alternatives name ↔ expansion ∈ grammar.expansions name := by
  simp [alternatives]

/-- A token is an alternative of the names that it is registered under. -/
@[simp] theorem token_mem_alternatives {grammar : Grammar} {name : Symbol} {token : Token} :
    .token token ∈ grammar.alternatives name ↔ token ∈ grammar.tokensOf name := by
  simp [alternatives]

end Grammar

end ChartParser
