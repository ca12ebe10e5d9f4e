/-
Names of files as text: the directory a name stands in, names relative to a
directory, and extensions.
-/
import DetectionPlan.Text.Parts

namespace DetectionPlan.Path

/-- The parts of a path between its slashes. Empty parts and dots other than a
leading one say nothing and are left out. -/
def parts (path : String) : List String :=
  match (partsAt '/' path.toList).map String.ofList with
  | [] => []
  | first :: rest => (if first.isEmpty then [] else [first]) ++
      rest.filter fun p => !p.isEmpty && p != "."

/-- Whether a path starts at the root. -/
def isAbsolute (path : String) : Bool := path.toList.head? == some '/'

/-- The file a path names; none when it ends in a step upwards. -/
def fileName? (path : String) : Option String :=
  (parts path).getLast?.filter fun p => p != "." && p != ".."

/-- What follows the last dot of a file's name, unless the name starts there. -/
def extension? (path : String) : Option String := do
  let name ← fileName? path
  match (partsAt '.' name.toList).map String.ofList with
  | [] | [_] | ["", _] => none
  | pieces => pieces.getLast?

/-- Drop what says nothing from the end of a path: slashes, and dots between
them. -/
def dropIdle : List Char → List Char
  | '/' :: rest => dropIdle rest
  | '.' :: '/' :: rest => dropIdle ('/' :: rest)
  | cs => cs
termination_by cs => cs.length

/-- The directory a path stands in, as it is written. -/
def parent (path : String) : String :=
  let start := if isAbsolute path then "/" else ""
  let backwards := dropIdle path.toList.reverse
  let kept := (dropIdle (backwards.dropWhile (· != '/'))).reverse
  if kept.isEmpty then start else String.ofList kept

/-- A path as seen from a directory. -/
def join (directory path : String) : String :=
  if isAbsolute path || directory.isEmpty then path
  else if directory.toList.getLast? == some '/' then directory ++ path
  else directory ++ "/" ++ path

end DetectionPlan.Path
