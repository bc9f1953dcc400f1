import ChartParser.Proofs.Grammar.Registered
import Mathlib.Data.List.Basic
import Mathlib.Data.List.Induction

/-!
# What a history leaves in a grammar

The tables of a grammar hold everything that its history registers, in order and
with repetitions. Its lookups hold every name once, and the names stand in the
order in which they were first registered for the right side.
-/

namespace ChartParser

/-- The rule that expands a name to an alternative. -/
def Alternative.ruleOf : Alternative → Symbol → Registration
  | .pair expansion, name => .binary name expansion.left expansion.right
  | .token word, name => .terminal name word

namespace Grammar

/-- The names that expand to an alternative, as the lookup of its kind finds them. -/
def namesFor (grammar : Grammar) : Alternative → List Symbol
  | .pair expansion => grammar.namesForPair expansion.left expansion.right
  | .token token => grammar.namesForToken token

/-- A grammar holds what a history registers, and nothing else. Of two names that are found for a
right side, the one comes first that was first registered for it. -/
structure Records (grammar : Grammar) (history : List Change) : Prop where
  expansions : ∀ name, grammar.expansions name =
    (history.filterMap Change.registration?).filterMap (Registration.expansionOf name)
  mem_rules : ∀ name, name ∈ grammar.rules.listings ↔
    ∃ left right, .register (.binary name left right) ∈ history
  tokensOf : ∀ name, grammar.tokensOf name =
    (history.filterMap Change.registration?).filterMap (Registration.tokenOf name)
  mem_terminals : ∀ name, name ∈ grammar.terminals.listings ↔
    ∃ token, .register (.terminal name token) ∈ history
  nodup_pair : ∀ left right, (grammar.namesForPair left right).Nodup
  mem_pair : ∀ left right name,
    name ∈ grammar.namesForPair left right ↔ ⟨left, right⟩ ∈ grammar.expansions name
  order_pair : ∀ left right, (grammar.namesForPair left right).Pairwise fun first second =>
    history.idxOf (.register (.binary first left right)) <
      history.idxOf (.register (.binary second left right))
  nodup_token : ∀ token, (grammar.namesForToken token).Nodup
  mem_token : ∀ token name, name ∈ grammar.namesForToken token ↔ token ∈ grammar.tokensOf name
  order_token : ∀ token, (grammar.namesForToken token).Pairwise fun first second =>
    history.idxOf (.register (.terminal first token)) <
      history.idxOf (.register (.terminal second token))
  length_alternatives : ∀ name, (grammar.alternatives name).length =
    (history.filterMap Change.registration?).countP fun registration => registration.name = name
  isEmpty : grammar.isEmpty ↔ ∀ registration, .register registration ∉ history

variable {grammar : Grammar} {registration : Registration}

/-- A listing that every registration adds to at its end, and that does not depend on the start
symbol, is added to in order by a history. -/
theorem listing_changeAll {Item : Type} (listing : Grammar → List Item)
    (added : Registration → Option Item)
    (onRegister : ∀ grammar registration,
      listing (register grammar registration) = listing grammar ++ (added registration).toList)
    (onStart : ∀ grammar start, listing (withStart grammar start) = listing grammar)
    (grammar : Grammar) (history : List Change) :
    listing (grammar.changeAll history) =
      listing grammar ++ (history.filterMap Change.registration?).filterMap added := by
  induction history generalizing grammar with
  | nil => simp [changeAll]
  | cons change later inductionHypothesis =>
      refine (inductionHypothesis (grammar.change change)).trans ?_
      cases change with
      | register registration =>
          rw [Grammar.change, onRegister, List.append_assoc]
          cases found : added registration <;> simp [Change.registration?, found]
      | startWith start =>
          rw [Grammar.change, onStart]
          rfl

/-- A history adds its pairs behind those that a name has. -/
theorem expansions_changeAll (grammar : Grammar) (history : List Change) (name : Symbol) :
    (grammar.changeAll history).expansions name = grammar.expansions name ++
      (history.filterMap Change.registration?).filterMap (Registration.expansionOf name) :=
  listing_changeAll (fun grammar => grammar.expansions name) (Registration.expansionOf name)
    (fun grammar registration => grammar.expansions_register registration name) (fun _ _ => rfl)
    grammar history

/-- A history adds its tokens behind those that a name has. -/
theorem tokensOf_changeAll (grammar : Grammar) (history : List Change) (name : Symbol) :
    (grammar.changeAll history).tokensOf name = grammar.tokensOf name ++
      (history.filterMap Change.registration?).filterMap (Registration.tokenOf name) :=
  listing_changeAll (fun grammar => grammar.tokensOf name) (Registration.tokenOf name)
    (fun grammar registration => grammar.tokensOf_register registration name) (fun _ _ => rfl)
    grammar history

/-- A history adds as many alternatives to a name as it registers rules under it. -/
theorem length_alternatives_changeAll (grammar : Grammar) (history : List Change)
    (name : Symbol) :
    ((grammar.changeAll history).alternatives name).length =
      (grammar.alternatives name).length + (history.filterMap Change.registration?).countP
        fun registration => registration.name = name := by
  induction history generalizing grammar with
  | nil => simp [changeAll]
  | cons change later inductionHypothesis =>
      refine (inductionHypothesis (grammar.change change)).trans ?_
      cases change with
      | register registration =>
          have head : (Change.register registration).registration? = some registration := rfl
          rw [Grammar.change, length_alternatives_register, List.filterMap_cons_some head,
            List.countP_cons]
          simp only [decide_eq_true_eq]
          omega
      | startWith start => rfl

/-- A registration leaves the names for a right side as they are, or its own name is a new one and
comes last. -/
theorem namesFor_register (grammar : Grammar) (registration : Registration)
    (alternative : Alternative) :
    (grammar.register registration).namesFor alternative = grammar.namesFor alternative ∨
      ∃ name, registration = alternative.ruleOf name ∧ name ∉ grammar.namesFor alternative ∧
        (grammar.register registration).namesFor alternative =
          grammar.namesFor alternative ++ [name] := by
  cases registration with
  | binary name left right =>
      cases alternative with
      | pair expansion =>
          rcases grammar.byPair.listed_appendNew ⟨left, right⟩ expansion name with
            same | ⟨rfl, absent, added⟩
          · exact Or.inl same
          · exact Or.inr ⟨name, rfl, absent, added⟩
      | token token => exact Or.inl rfl
  | terminal name word =>
      cases alternative with
      | pair expansion => exact Or.inl rfl
      | token token =>
          rcases grammar.byToken.listed_appendNew word token name with
            same | ⟨rfl, absent, added⟩
          · exact Or.inl same
          · exact Or.inr ⟨name, rfl, absent, added⟩

/-- A name is found for a right side exactly when the rule is registered. -/
theorem Consistent.mem_namesFor (consistent : grammar.Consistent) (alternative : Alternative)
    (name : Symbol) :
    name ∈ grammar.namesFor alternative ↔ grammar.Registered (alternative.ruleOf name) := by
  cases alternative with
  | pair expansion => exact consistent.mem_namesForPair expansion.left expansion.right name
  | token token => exact consistent.mem_namesForToken token name

/-- After a history exactly the rules are registered that it registers. -/
theorem registered_changeAll_empty (start : Symbol) (history : List Change)
    (registration : Registration) :
    ((empty start).changeAll history).Registered registration ↔
      .register registration ∈ history := by
  rw [registered_changeAll]
  simp only [not_registered_empty, false_or]

/-- After a history a name is found for a right side exactly when the history registers it. -/
theorem mem_namesFor_changeAll (start : Symbol) (history : List Change)
    (alternative : Alternative) (name : Symbol) :
    name ∈ ((empty start).changeAll history).namesFor alternative ↔
      .register (alternative.ruleOf name) ∈ history := by
  rw [((consistent_empty start).changeAll history).mem_namesFor, registered_changeAll_empty]

/-- The names for a right side stand in the order in which they were first registered for it. -/
theorem pairwise_namesFor_changeAll (start : Symbol) (history : List Change)
    (alternative : Alternative) :
    (((empty start).changeAll history).namesFor alternative).Pairwise fun first second =>
      history.idxOf (.register (alternative.ruleOf first)) <
        history.idxOf (.register (alternative.ruleOf second)) := by
  induction history using List.reverseRecOn with
  | nil => cases alternative <;> exact List.Pairwise.nil
  | append_singleton earlier last inductionHypothesis =>
      have known := fun name => (mem_namesFor_changeAll start earlier alternative name).mp
      -- One more change is made after the first registrations of the names that are there.
      have kept : (((empty start).changeAll earlier).namesFor alternative).Pairwise
          fun first second =>
            (earlier ++ [last]).idxOf (.register (alternative.ruleOf first)) <
              (earlier ++ [last]).idxOf (.register (alternative.ruleOf second)) := by
        refine inductionHypothesis.imp_of_mem fun {first second} isFirst isSecond ordered => ?_
        rwa [List.idxOf_append_of_mem (known first isFirst),
          List.idxOf_append_of_mem (known second isSecond)]
      rw [changeAll_append]
      cases last with
      | startWith start => exact kept
      | register registration =>
          rcases namesFor_register ((empty start).changeAll earlier) registration alternative with
            same | ⟨added, rfl, absent, extended⟩
          · exact same.symm ▸ kept
          · have new : .register (alternative.ruleOf added) ∉ earlier := fun registered =>
              absent ((mem_namesFor_changeAll start earlier alternative added).mpr registered)
            refine extended.symm ▸ List.pairwise_append.mpr ⟨kept, by simp, ?_⟩
            intro first isFirst second isSecond
            obtain rfl := List.mem_singleton.mp isSecond
            rw [List.idxOf_append_of_mem (known first isFirst), List.idxOf_append_of_notMem new]
            exact Nat.lt_of_lt_of_le (List.idxOf_lt_length_of_mem (known first isFirst))
              (Nat.le_add_right _ _)

/-- A name has an entry in the binary rules exactly when a pair is registered under it. -/
theorem mem_rules_iff (grammar : Grammar) (name : Symbol) :
    name ∈ grammar.rules.listings ↔
      ∃ left right, grammar.Registered (.binary name left right) := by
  rw [Table.mem_listings]
  exact ⟨fun ⟨expansion, member⟩ => ⟨expansion.left, expansion.right, member⟩,
    fun ⟨left, right, member⟩ => ⟨⟨left, right⟩, member⟩⟩

/-- A name has an entry in the terminal rules exactly when a token is registered under it. -/
theorem mem_terminals_iff (grammar : Grammar) (name : Symbol) :
    name ∈ grammar.terminals.listings ↔ ∃ token, grammar.Registered (.terminal name token) :=
  Table.mem_listings

/-- A grammar is empty exactly when no rule is registered in it. -/
theorem isEmpty_iff (grammar : Grammar) :
    grammar.isEmpty ↔ ∀ registration, ¬ grammar.Registered registration := by
  rw [isEmpty, Bool.and_eq_true, Table.isEmpty_iff, Table.isEmpty_iff]
  constructor
  · rintro ⟨noPairs, noTokens⟩ registration
    cases registration with
    | binary name left right => exact noPairs name ⟨left, right⟩
    | terminal name token => exact noTokens name token
  · intro none
    exact ⟨fun name expansion => none (.binary name expansion.left expansion.right),
      fun name token => none (.terminal name token)⟩

/-- Whatever is done to a new grammar, it holds what its history registers: tables in the order of
the calls, lookups that invert the tables and are in the order of first registrations, counts, and
emptiness. -/
theorem changeAll_records (start : Symbol) (history : List Change) :
    ((empty start).changeAll history).Records history := by
  have consistent := (consistent_empty start).changeAll history
  exact
    { expansions := expansions_changeAll (empty start) history
      mem_rules := fun name => by simp only [mem_rules_iff, registered_changeAll_empty]
      tokensOf := tokensOf_changeAll (empty start) history
      mem_terminals := fun name => by simp only [mem_terminals_iff, registered_changeAll_empty]
      nodup_pair := consistent.nodup_namesForPair
      mem_pair := consistent.mem_namesForPair
      order_pair := fun left right =>
        pairwise_namesFor_changeAll start history (.pair ⟨left, right⟩)
      nodup_token := consistent.nodup_namesForToken
      mem_token := consistent.mem_namesForToken
      order_token := fun token => pairwise_namesFor_changeAll start history (.token token)
      length_alternatives := fun name => by
        rw [length_alternatives_changeAll]
        exact Nat.zero_add _
      isEmpty := by simp only [isEmpty_iff, registered_changeAll_empty] }

end Grammar

end ChartParser
