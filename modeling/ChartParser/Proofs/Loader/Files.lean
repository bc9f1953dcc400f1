import ChartParser.Proofs.Loader.Outcome

/-!
# Loading from a file tree

A plain path goes down only, name by name. It opens what its names lead to when
they lead through directories. So a text that is put at such a path is the text
that is loaded from there, unless a file stands in the way. Where a path cannot be
opened the file as a whole is at fault; where it opens a directory, or bytes that
are not text, the line is that cannot be read.
-/

namespace ChartParser

open Text

/-- A path between slashes is cut at each of them. -/
theorem Path.pieces_of_slash {path : String} {before later : List Char}
    (slash : path.toList = before ++ '/' :: later) :
    pieces path = (before.splitOn '/' ++ later.splitOn '/').map String.ofList := by
  rw [pieces, slash, splitOn_append_terminator]

/-- A piece that is a name stands for the part with that name. -/
theorem Path.innerPart_eq {piece : String} (named : piece ∉ ["", ".", ".."]) :
    innerPart piece = some (.named piece) := by
  unfold innerPart
  split <;> simp_all

namespace FileTree

variable {tree : FileTree} {path other : String} {names : List String} {item found : FileItem}
  {fault : Fault}

/-- What can be wrong with a path that cannot be opened. -/
def openingFaults : List Fault :=
  [holdsNul, absent, tooLong, throughFile]

/-- A path that goes down only, by names that files can have. -/
structure Plain (path : String) : Prop where
  noNul : '\x00' ∉ path.toList
  short : path.utf8ByteSize ≤ longestPath
  named : ∀ piece ∈ Path.pieces path,
    piece ∉ ["", ".", ".."] ∧ piece.utf8ByteSize ≤ longestName

namespace Plain

/-- A plain path neither begins nor ends with a slash. -/
theorem ne_nil_of_slash (plain : Plain path) {before later : List Char}
    (slash : path.toList = before ++ '/' :: later) : before ≠ [] ∧ later ≠ [] := by
  have named : "" ∉ Path.pieces path := fun member => (plain.named "" member).1 (by simp)
  rw [Path.pieces_of_slash slash] at named
  constructor <;> rintro rfl <;> simp at named

/-- A plain path is not absolute. -/
theorem isAbsolute_eq (plain : Plain path) : Path.isAbsolute path = false := by
  rw [Path.isAbsolute, beq_eq_false_iff_ne]
  intro first
  obtain ⟨later, slash⟩ : ∃ later, path.toList = [] ++ '/' :: later :=
    List.head?_eq_some_iff.mp first
  exact (plain.ne_nil_of_slash slash).1 rfl

/-- A plain path has a name. -/
theorem isEmpty_eq (plain : Plain path) : path.isEmpty = false := by
  rw [String.isEmpty_eq_false_iff]
  rintro rfl
  exact absurd plain.named (by decide)

/-- The names on a plain path are its pieces. -/
theorem namesOf_eq (plain : Plain path) : namesOf path = Path.pieces path := by
  have unended : path.toList.getLast? ≠ some '/' := by
    intro last
    obtain ⟨before, slash⟩ := List.getLast?_eq_some_iff.mp last
    exact (plain.ne_nil_of_slash slash).2 rfl
  rw [namesOf, if_neg unended, List.filter_eq_self]
  intro piece member
  have named := (plain.named piece member).1
  simp_all

/-- An item that is put at a plain path is put under its pieces. -/
theorem names_eq (plain : Plain path) :
    (Path.parts path).filterMap PathPart.name? = Path.pieces path := by
  have relative : (Path.pieces path).head? ≠ some "." := by
    intro first
    have member := List.mem_of_mem_head? first
    exact (plain.named "." member).1 (by simp)
  rw [Path.parts, plain.isAbsolute_eq, if_neg Bool.false_ne_true, if_neg relative, List.nil_append,
    List.filterMap_filterMap]
  refine (List.filterMap_congr fun piece member => ?_).trans List.filterMap_some
  rw [Path.innerPart_eq (plain.named piece member).1]
  rfl

/-- A plain path is walked down from the top. -/
theorem resolve_eq (plain : Plain path) (tree : FileTree) :
    tree.resolve path = tree.walk (.inside []) (Path.pieces path) := by
  have noNul : path.toList.contains '\x00' = false := by simpa using plain.noNul
  rw [resolve, noNul, plain.isEmpty_eq, plain.isAbsolute_eq, plain.namesOf_eq,
    if_neg Bool.false_ne_true, if_neg Bool.false_ne_true, if_neg (Nat.not_lt.mpr plain.short),
    if_neg Bool.false_ne_true]

end Plain

/-- A name that names no directory of its own leads one step down. -/
theorem Place.enter_inside {name : String} (named : name ∉ ["", ".", ".."]) :
    (Place.inside names).enter name = some (.inside (names ++ [name])) := by
  unfold Place.enter
  split <;> simp_all

/-- A property of all lists on the way to a longer one. -/
theorem forall_above_cons {name : String} {rest : List String} {property : List String → Prop} :
    (∀ above, above <+: name :: rest → above ≠ name :: rest → property above) ↔
      property [] ∧ ∀ above, above <+: rest → above ≠ rest → property (name :: above) := by
  constructor
  · intro holds
    refine ⟨holds [] List.nil_prefix (List.cons_ne_nil name rest).symm, ?_⟩
    intro above isPrefix proper
    exact holds _ ((List.prefix_cons_inj name).mpr isPrefix) (by simpa using proper)
  · rintro ⟨top, holds⟩ above isPrefix proper
    rcases List.prefix_cons_iff.mp isPrefix with rfl | ⟨later, rfl, laterPrefix⟩
    · exact top
    · exact holds later laterPrefix (by simpa using proper)

/-- A walk down arrives at what is found under the names, when everything on the way is a
directory. -/
theorem walk_eq_ok_iff
    (named : ∀ name ∈ names, name ∉ ["", ".", ".."] ∧ name.utf8ByteSize ≤ longestName)
    (here : List String) :
    tree.walk (.inside here) names = .ok found ↔
      (∀ above, above <+: names → above ≠ names → tree.find? (here ++ above) = some .directory) ∧
        tree.find? (here ++ names) = some found := by
  induction names generalizing here with
  | nil =>
      rw [walk, itemAt, List.append_nil]
      cases tree.find? here <;> simp
  | cons name rest inductionHypothesis =>
      obtain ⟨⟨isName, short⟩, laterNamed⟩ := List.forall_mem_cons.mp named
      have down := inductionHypothesis laterNamed (here ++ [name])
      simp only [List.append_assoc, List.singleton_append] at down
      rw [forall_above_cons, List.append_nil, walk, itemAt]
      rcases tree.find? here with _ | ⟨bytes⟩ | _
      · simp
      · simp
      · simp [Nat.not_lt.mpr short, Place.enter_inside isName, down]

/-- The latest item under some names is found there, and otherwise a directory if there are names
that go on from them. -/
theorem find?_eq (tree : FileTree) (names : List String) :
    tree.find? names =
      ((tree.items.reverse.find? fun item => item.1 = names).map Prod.snd).or
        (if names = [] ∨ ∃ item ∈ tree.items, names <+: item.1 then some .directory else none) := by
  rw [find?]
  cases tree.items.reverse.find? fun item => item.1 = names with
  | some item => rfl
  | none =>
      refine if_congr ?_ rfl rfl
      simp [List.isPrefixOf_iff_prefix]

/-- What is found after one more item has been put into a tree: the item under its own names, at
least a directory on the way to it, and whatever there was under all other names. -/
theorem find?_add (tree : FileTree) (plain : Plain path) (item : FileItem) (names : List String) :
    (tree.add path item).find? names =
      if names = Path.pieces path then some item
      else if names <+: Path.pieces path then (tree.find? names).or (some .directory)
      else tree.find? names := by
  have placed : (tree.add path item).items = tree.items ++ [(Path.pieces path, item)] := by
    rw [add, plain.names_eq]
  have goesOn : (∃ entry ∈ (tree.add path item).items, names <+: entry.1) ↔
      (∃ entry ∈ tree.items, names <+: entry.1) ∨ names <+: Path.pieces path := by
    simp [placed, or_and_right, exists_or]
  simp only [find?_eq, goesOn]
  rw [placed, List.reverse_append, List.reverse_singleton, List.singleton_append, List.find?_cons]
  by_cases own : names = Path.pieces path
  · simp [own]
  · have notOwn : ¬ Path.pieces path = names := fun same => own same.symm
    by_cases isPrefix : names <+: Path.pieces path
    · simp only [own, notOwn, isPrefix, decide_false, if_false, if_true, or_true]
      cases tree.items.reverse.find? fun item => item.1 = names with
      | some item => rfl
      | none => split <;> rfl
    · simp only [own, notOwn, isPrefix, decide_false, if_false, or_false]

/-- A plain path leads to what is found under its pieces when everything on the way is a
directory. -/
theorem resolve_eq_ok_iff (plain : Plain path) :
    tree.resolve path = .ok found ↔
      (∀ above, above <+: Path.pieces path → above ≠ Path.pieces path →
        tree.find? above = some .directory) ∧
        tree.find? (Path.pieces path) = some found := by
  simpa only [plain.resolve_eq, List.nil_append] using walk_eq_ok_iff plain.named []

/-- No file stands on the way to what is under some names. -/
def Clear (tree : FileTree) (names : List String) : Prop :=
  ∀ above, above <+: names → above ≠ names → ∀ bytes, tree.find? above ≠ some (.file bytes)

/-- An item that is put at a plain path is what the path leads to, unless a file stands in the
way. -/
theorem resolve_add (plain : Plain path) (clear : tree.Clear (Path.pieces path))
    (item : FileItem) : (tree.add path item).resolve path = .ok item := by
  rw [resolve_eq_ok_iff plain]
  refine ⟨?_, by rw [find?_add tree plain, if_pos rfl]⟩
  intro above isPrefix proper
  rw [find?_add tree plain, if_neg proper, if_pos isPrefix]
  rcases here : tree.find? above with _ | bytes | _
  · rfl
  · exact absurd here (clear above isPrefix proper bytes)
  · rfl

/-- Putting an item at one plain path takes nothing from another, unless the other goes through
it. -/
theorem resolve_add_of_not_isPrefix (plain : Plain path) (otherPlain : Plain other)
    (apart : ¬ Path.pieces path <+: Path.pieces other) (item : FileItem)
    (resolved : tree.resolve other = .ok found) :
    (tree.add path item).resolve other = .ok found := by
  -- What is found on the way to the other path is found there still.
  have kept : ∀ names kind, names <+: Path.pieces other → tree.find? names = some kind →
      (tree.add path item).find? names = some kind := by
    intro names kind isPrefix here
    have notOwn : names ≠ Path.pieces path := fun same => apart (same ▸ isPrefix)
    rw [find?_add tree plain, if_neg notOwn, here]
    exact ite_self _
  rw [resolve_eq_ok_iff otherPlain] at resolved ⊢
  obtain ⟨opened, there⟩ := resolved
  refine ⟨?_, kept _ _ (List.prefix_refl _) there⟩
  intro above isPrefix proper
  exact kept _ _ isPrefix (opened above isPrefix proper)

/-- A name that cannot be followed is at fault in one of the known ways. -/
theorem mem_openingFaults_of_walk {place : Place} (walked : tree.walk place names = .error fault) :
    fault ∈ openingFaults := by
  induction names generalizing place with
  | nil =>
      rw [walk] at walked
      split at walked <;> cases walked
      simp [openingFaults]
  | cons name rest inductionHypothesis =>
      rw [walk] at walked
      split at walked
      · split at walked
        · cases walked
          simp [openingFaults]
        · split at walked
          · exact inductionHypothesis walked
          · cases walked
            simp [openingFaults]
      · cases walked
        simp [openingFaults]
      · cases walked
        simp [openingFaults]

/-- So is a path. -/
theorem mem_openingFaults_of_resolve (unresolved : tree.resolve path = .error fault) :
    fault ∈ openingFaults := by
  rw [resolve] at unresolved
  split at unresolved
  · cases unresolved
    simp [openingFaults]
  split at unresolved
  · cases unresolved
    simp [openingFaults]
  split at unresolved
  · cases unresolved
    simp [openingFaults]
  exact mem_openingFaults_of_walk unresolved

end FileTree

/-- The text of a file at a plain path is what a load of the path reads. -/
theorem loadFile_add {tree : FileTree} {path : String} (plain : FileTree.Plain path)
    (clear : tree.Clear (Path.pieces path)) (text : String) :
    (loadFile path ((tree.add path (.file (bytes text))).openPath path)).result =
      .ok ((Loading.onto (.empty Grammar.defaultStart)).readText text).grammar := by
  have delivered : Delivered.ofDeliveries [.data (bytes text)] = ⟨bytes text, none⟩ := by
    simp [Delivered.ofDeliveries]
  have loaded : (Loading.onto (.empty Grammar.defaultStart)).readStream [.data (bytes text)] =
      .ok ((Loading.onto (.empty Grammar.defaultStart)).readText text) := by
    rw [Loading.readStream_eq_iff, delivered]
    exact loadOutcome_of_text _ text
  rw [FileTree.openPath, FileTree.resolve_add plain clear]
  simp [Except.map, loadFile, loaded]

example :
    (loadFile "grammars/toy.cnf"
        ((FileTree.empty.add "grammars/toy.cnf" (.file (bytes "S -> a"))).openPath
          "grammars/toy.cnf")).result =
      .ok ((Grammar.empty "S").register (.terminal "S" "a")) := by
  decide +kernel

/-- A load from a file tree fails for the whole file when the path cannot be opened, and otherwise
in a line: in the first when the path is that of a directory, or in one that is not text. -/
theorem failure_of_loadFile {tree : FileTree} {path : String} {failure : LoadFailure}
    (failed : (loadFile path (tree.openPath path)).result = .error failure) :
    (∃ fault ∈ FileTree.openingFaults, tree.resolve path = .error fault ∧
        failure = ⟨⟨path, 0⟩, fault⟩) ∨
      (tree.resolve path = .ok .directory ∧ failure = ⟨⟨path, 1⟩, FileTree.isDirectory⟩) ∨
      ∃ bytes line, tree.resolve path = .ok (.file bytes) ∧
        failure = ⟨⟨path, line + 1⟩, Reading.notText⟩ := by
  rw [FileTree.openPath] at failed
  rcases resolved : tree.resolve path with fault | bytes | _ <;> rw [resolved] at failed
  · refine .inl ⟨fault, FileTree.mem_openingFaults_of_resolve resolved, rfl, ?_⟩
    exact (Except.error.inj failed).symm
  · refine .inr (.inr ?_)
    cases read : (Loading.onto (.empty Grammar.defaultStart)).readStream [.data bytes] with
    | ok loading => simp [Except.map, loadFile, read] at failed
    | error stopped =>
        obtain rfl : ⟨⟨path, stopped.line⟩, stopped.fault⟩ = failure := by
          simpa [Except.map, loadFile, read] using failed
        -- Nothing but the bytes is delivered, so only a line can be at fault.
        cases Loading.readStream_eq_iff.mp read with
        | badLine lines notText => exact ⟨bytes, _, rfl, rfl⟩
        | badRest lines whole notText => exact ⟨bytes, _, rfl, rfl⟩
        | fault lines faulty => simp [Delivered.ofDeliveries] at faulty
  · exact .inr (.inl ⟨rfl, (Except.error.inj failed).symm⟩)

end ChartParser
