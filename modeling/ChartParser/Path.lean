/-!
# Paths

Two paths name the same place in the same way when their parts are the same.
Empty parts do not count, and a part that names the current directory counts
only where a relative path begins with it.
-/

namespace ChartParser

/-- A part of a path, as it stands between slashes. An absolute path begins at the top of the file
system, and a relative one may begin with the current directory. -/
inductive PathPart where
  | top
  | here
  | above
  | named (name : String)
deriving DecidableEq, Repr

/-- The name of a part that is a file or directory with a name. -/
def PathPart.name? : PathPart → Option String
  | named name => some name
  | top | here | above => none

namespace Path

/-- What stands between the slashes of a path, the empty pieces included. -/
def pieces (path : String) : List String :=
  (path.toList.splitOn '/').map String.ofList

/-- Whether a path begins with a slash. -/
def isAbsolute (path : String) : Bool :=
  path.toList.head? == some '/'

/-- The part that a piece stands for after the beginning of a path. -/
def innerPart : String → Option PathPart
  | "" => none
  | "." => none
  | ".." => some .above
  | name => some (.named name)

/-- The parts of a path. -/
def parts (path : String) : List PathPart :=
  let beginning :=
    if isAbsolute path then [.top]
    else if (pieces path).head? = some "." then [.here]
    else []
  beginning ++ (pieces path).filterMap innerPart

/-- Whether two paths have the same parts. -/
def same (first second : String) : Bool :=
  parts first == parts second

end Path

end ChartParser
