import Std.Data.ExtTreeMap

/-!
# Listings under a key

A table keeps, for every key, values in the order in which they were listed.
A key is present exactly when something has been listed under it, so two
tables are equal exactly when they list the same values under every key.
-/

namespace ChartParser

/-- Values listed under keys. No key is kept with an empty listing. -/
structure Table (Key Value : Type) [Ord Key] [Std.TransOrd Key] where
  listings : Std.ExtTreeMap Key (List Value)
  inhabited : ∀ key : Key, listings[key]? ≠ some [] := by simp

namespace Table

variable {Key Value : Type} [Ord Key] [Std.TransOrd Key]

instance [Std.LawfulEqOrd Key] [DecidableEq Value] : DecidableEq (Table Key Value) :=
  fun first second =>
    if equal : first.listings = second.listings then
      isTrue (by cases first; cases second; cases equal; rfl)
    else
      isFalse fun same => equal (congrArg listings same)

/-- The table that lists nothing. -/
def empty : Table Key Value where
  listings := ∅

/-- Every value listed under a key, first listed first. -/
def listed (table : Table Key Value) (key : Key) : List Value :=
  table.listings[key]?.getD []

/-- List one more value under a key, after all that are there. -/
def append (table : Table Key Value) (key : Key) (value : Value) : Table Key Value where
  listings := table.listings.alter key fun current => some (current.getD [] ++ [value])
  inhabited := by
    intro other
    rw [Std.ExtTreeMap.getElem?_alter]
    split
    · simp
    · exact table.inhabited other

/-- List a value under a key unless it is listed there already. -/
def appendNew [DecidableEq Value] (table : Table Key Value) (key : Key) (value : Value) :
    Table Key Value :=
  if value ∈ table.listed key then table else table.append key value

/-- The number of keys with a listing. -/
def keyCount (table : Table Key Value) : Nat :=
  table.listings.size

/-- Whether nothing at all is listed. -/
def isEmpty (table : Table Key Value) : Bool :=
  table.listings.isEmpty

/-- Every key with its listing, smaller keys first. -/
def toList (table : Table Key Value) : List (Key × List Value) :=
  table.listings.toList

/-- A fresh table lists nothing under any key. -/
@[simp] theorem listed_empty (key : Key) : (empty : Table Key Value).listed key = [] := by
  simp [listed, empty]

/-- Appending extends the listing of its own key and leaves the others alone. -/
theorem listed_append [Std.LawfulEqOrd Key] [DecidableEq Key] (table : Table Key Value)
    (key other : Key) (value : Value) :
    (table.append key value).listed other =
      if key = other then table.listed other ++ [value] else table.listed other := by
  unfold listed append
  rw [Std.ExtTreeMap.getElem?_alter]
  by_cases same : key = other
  · subst same
    simp
  · simp [same]

/-- A value that is listed already changes nothing. -/
theorem appendNew_of_mem [DecidableEq Value] {table : Table Key Value} {key : Key} {value : Value}
    (present : value ∈ table.listed key) : table.appendNew key value = table :=
  if_pos present

/-- A value that is not listed yet goes to the end. -/
theorem appendNew_of_not_mem [DecidableEq Value] {table : Table Key Value} {key : Key}
    {value : Value} (absent : value ∉ table.listed key) :
    table.appendNew key value = table.append key value :=
  if_neg absent

/-- Listing a value unless it is there leaves a listing as it is or, under its own key, adds the
value at the end. -/
theorem listed_appendNew [Std.LawfulEqOrd Key] [DecidableEq Key] [DecidableEq Value]
    (table : Table Key Value) (key other : Key) (value : Value) :
    (table.appendNew key value).listed other = table.listed other ∨
      key = other ∧ value ∉ table.listed other ∧
        (table.appendNew key value).listed other = table.listed other ++ [value] := by
  by_cases present : value ∈ table.listed key
  · rw [appendNew_of_mem present]
    exact Or.inl rfl
  · rw [appendNew_of_not_mem present, listed_append]
    by_cases same : key = other
    · subst same
      exact Or.inr ⟨rfl, present, if_pos rfl⟩
    · exact Or.inl (if_neg same)

/-- Listing a value unless it is there adds that value, under its own key, and no other. -/
theorem mem_listed_appendNew [Std.LawfulEqOrd Key] [DecidableEq Key] [DecidableEq Value]
    (table : Table Key Value) (key other : Key) (value found : Value) :
    found ∈ (table.appendNew key value).listed other ↔
      found ∈ table.listed other ∨ (key = other ∧ found = value) := by
  by_cases present : value ∈ table.listed key
  · rw [appendNew_of_mem present]
    constructor
    · exact Or.inl
    · rintro (listed | ⟨rfl, rfl⟩)
      · exact listed
      · exact present
  · rw [appendNew_of_not_mem present, listed_append]
    split <;> simp_all

/-- Listing a value unless it is there leaves what is listed in front. -/
theorem listed_prefix_appendNew [Std.LawfulEqOrd Key] [DecidableEq Key] [DecidableEq Value]
    (table : Table Key Value) (key other : Key) (value : Value) :
    table.listed other <+: (table.appendNew key value).listed other := by
  by_cases present : value ∈ table.listed key
  · simp only [appendNew_of_mem present, List.prefix_refl]
  · rw [appendNew_of_not_mem present, listed_append]
    split
    · exact List.prefix_append _ _
    · exact List.prefix_refl _

/-- Listing values unless they are there lists none of them twice. -/
theorem nodup_listed_appendNew [Std.LawfulEqOrd Key] [DecidableEq Key] [DecidableEq Value]
    {table : Table Key Value} {other : Key} (distinct : (table.listed other).Nodup) (key : Key)
    (value : Value) : ((table.appendNew key value).listed other).Nodup := by
  by_cases present : value ∈ table.listed key
  · rwa [appendNew_of_mem present]
  · rw [appendNew_of_not_mem present, listed_append]
    by_cases same : key = other
    · subst same
      rw [if_pos rfl]
      refine List.nodup_append.mpr ⟨distinct, by simp, ?_⟩
      intro listed member added isAdded
      obtain rfl := List.mem_singleton.mp isAdded
      rintro rfl
      exact present member
    · rwa [if_neg same]

/-- A key is present exactly when some value is listed under it. -/
theorem mem_listings {table : Table Key Value} {key : Key} :
    key ∈ table.listings ↔ ∃ value, value ∈ table.listed key := by
  have inhabited := table.inhabited key
  rw [Std.ExtTreeMap.mem_iff_isSome_getElem?, listed]
  cases lookup : table.listings[key]? with
  | none => simp
  | some values =>
      have nonempty : values ≠ [] := fun none => inhabited (lookup.trans (congrArg some none))
      simpa using List.exists_mem_of_ne_nil values nonempty

/-- Tables that list the same values under every key are equal. -/
@[ext] theorem ext_listed [Std.LawfulEqOrd Key] {first second : Table Key Value}
    (same : ∀ key, first.listed key = second.listed key) : first = second := by
  have lookups : ∀ key : Key, first.listings[key]? = second.listings[key]? := by
    intro key
    have here := same key
    unfold listed at here
    have firstInhabited := first.inhabited key
    have secondInhabited := second.inhabited key
    cases firstLookup : first.listings[key]? <;> cases secondLookup : second.listings[key]? <;>
      simp_all
  have listings : first.listings = second.listings := Std.ExtTreeMap.ext_getElem? lookups
  cases first
  cases second
  cases listings
  rfl

/-- A table is empty exactly when no value is listed under any key. -/
theorem isEmpty_iff [Std.LawfulEqOrd Key] {table : Table Key Value} :
    table.isEmpty ↔ ∀ key value, value ∉ table.listed key := by
  rw [isEmpty, Std.ExtTreeMap.isEmpty_iff]
  constructor
  · intro none
    simp [listed, none]
  · intro none
    have same : table = empty := by
      ext key : 1
      rw [listed_empty, List.eq_nil_iff_forall_not_mem]
      exact none key
    rw [same, empty]

end Table

end ChartParser
