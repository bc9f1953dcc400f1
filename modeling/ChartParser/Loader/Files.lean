import ChartParser.Loader.Reading

/-!
# Grammars from files

A file tree stands for a directory and everything in it. Opening a path walks
it from the directory, name by name, and the first name that cannot be followed
decides the fault. A directory can be opened, but reading it fails.
-/

namespace ChartParser

/-- What is found in a directory under some names. -/
inductive FileItem where
  | file (bytes : List UInt8)
  | directory
deriving DecidableEq, Repr

/-- Files and directories with the names that lead to them. Directories on the way to an item need
not be listed; of two items with the same names the later one counts. -/
structure FileTree where
  items : List (List String × FileItem)

namespace FileTree

/-- The directory with nothing in it. -/
def empty : FileTree where
  items := []

/-- Put an item at a path, seen from the top of the tree. -/
def add (tree : FileTree) (path : String) (item : FileItem) : FileTree where
  items := tree.items ++ [((Path.parts path).filterMap PathPart.name?, item)]

/-- The item under some names, seen from the top of the tree. -/
def find? (tree : FileTree) (names : List String) : Option FileItem :=
  match tree.items.reverse.find? fun item => item.1 = names with
  | some item => some item.2
  | none =>
      if names.isEmpty || tree.items.any fun item => names.isPrefixOf item.1 then
        some .directory
      else
        none

/-- The longest name that a file may have, in bytes. -/
def longestName : Nat := 255

/-- The longest path that can be opened, in bytes. -/
def longestPath : Nat := 4095

/-- The fault of a name that leads nowhere. -/
def absent : Fault where
  kind := .notFound
  words := some "No such file or directory (os error 2)"

/-- The fault of a path that goes on after a file. -/
def throughFile : Fault where
  kind := .notADirectory
  words := some "Not a directory (os error 20)"

/-- The fault of a name or a path that is too long. -/
def tooLong : Fault where
  kind := .invalidName
  words := some "File name too long (os error 36)"

/-- The fault of a path with a NUL character in it. -/
def holdsNul : Fault where
  kind := .invalidInput
  words := some "file name contained an unexpected NUL byte"

/-- The fault of reading a directory as if it were a file. -/
def isDirectory : Fault where
  kind := .isADirectory
  words := some "Is a directory (os error 21)"

/-- Where a walk stands: inside the tree, at the names that lead there from its top, or somewhere
above the top. -/
inductive Place where
  | inside (names : List String)
  | outside
deriving DecidableEq, Repr

/-- What is found at a place. Everything above the tree is a directory. -/
def itemAt (tree : FileTree) : Place → Option FileItem
  | .inside names => tree.find? names
  | .outside => some .directory

/-- The place that a name leads to. Nothing is known above the tree. -/
def Place.enter : Place → String → Option Place
  | place, "." => some place
  | .inside names, ".." => if names.isEmpty then some .outside else some (.inside names.dropLast)
  | .outside, ".." => some .outside
  | .inside names, name => some (.inside (names ++ [name]))
  | .outside, _ => none

/-- Follow names from a place to an item. -/
def walk (tree : FileTree) : Place → List String → Except Fault FileItem
  | place, [] =>
      match tree.itemAt place with
      | some item => .ok item
      | none => .error absent
  | place, name :: rest =>
      match tree.itemAt place with
      | some .directory =>
          if longestName < name.utf8ByteSize then
            .error tooLong
          else
            match place.enter name with
            | some next => tree.walk next rest
            | none => .error absent
      | some (.file _) => .error throughFile
      | none => .error absent

/-- The names on a path. A slash at the end asks for a directory, as the name `.` does. -/
def namesOf (path : String) : List String :=
  let names := (Path.pieces path).filter fun piece => !piece.isEmpty
  if path.toList.getLast? = some '/' then names ++ ["."] else names

/-- What a path leads to. -/
def resolve (tree : FileTree) (path : String) : Except Fault FileItem :=
  if path.toList.contains '\x00' then .error holdsNul
  else if path.isEmpty then .error absent
  else if longestPath < path.utf8ByteSize then .error tooLong
  else tree.walk (if Path.isAbsolute path then .outside else .inside []) (namesOf path)

/-- Open the file at a path, for what reading it delivers. -/
def openPath (tree : FileTree) (path : String) : Except Fault (List Delivery) :=
  (tree.resolve path).map fun
    | .file bytes => [.data bytes]
    | .directory => [.failure isDirectory]

end FileTree

/-- What came of loading a file, with what was logged. -/
structure LoadReport where
  result : Except LoadFailure Grammar
  events : List Event

/-- Load a grammar from a file that has been opened, or could not be. -/
def loadFile (path : String) (opened : Except Fault (List Delivery)) : LoadReport :=
  match opened with
  | .error fault => ⟨.error ⟨⟨path, 0⟩, fault⟩, []⟩
  | .ok deliveries =>
      match (Loading.onto (.empty Grammar.defaultStart)).readStream deliveries with
      | .error stopped =>
          ⟨.error ⟨⟨path, stopped.line⟩, stopped.fault⟩, stopped.loading.events.toList⟩
      | .ok loading =>
          let summary := .loadedGrammar path loading.grammar.rules.keyCount
            loading.grammar.terminals.keyCount
          ⟨.ok loading.grammar, (loading.log summary).events.toList⟩

end ChartParser
