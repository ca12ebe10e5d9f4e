/-
Reading settings from their text: headers that open tables, and names that are
given values. What is read is a document; the order and the grouping of the
statements leave no trace in it.
-/
import DetectionPlan.Toml.Scalar
import DetectionPlan.Toml.Tree

namespace DetectionPlan.Toml

open Calendar (expect)

/-- The items of a list after its opening bracket. -/
def listRest (item : Reader Json) (size : Nat) : (steps : Nat) → List Json → Reader Json
  | 0, _, _ => none
  | steps + 1, read, cs =>
    match skipLines size cs with
    | ']' :: rest => some (.array read.reverse, rest)
    | cs => do
      let (j, rest) ← item cs
      match skipLines size rest with
      | ',' :: rest => listRest item size steps (j :: read) rest
      | ']' :: rest => return (.array (j :: read).reverse, rest)
      | _ => none

/-- A name, possibly a dotted one, and the value it is given. -/
def assignment (item : Reader Json) (size : Nat) (cs : List Char) :
    Option ((List String × Json) × List Char) := do
  let (names, rest) ← path size size cs
  let (j, rest) ← item (skipSpaces (← expect '=' rest))
  return ((names, j), rest)

/-- Add an assignment to a table. -/
def assignTo (members : TomlMembers) (names : List String) (j : Json) : Option TomlMembers := do
  members.assign names.dropLast (← names.getLast?) j

/-- The members of a table between braces, after the opening one. -/
def bracesRest (item : Reader Json) (size : Nat) : (steps : Nat) → TomlMembers → Reader Json
  | 0, _, _ => none
  | steps + 1, members, cs => do
    let ((names, j), rest) ← assignment item size cs
    let members ← assignTo members names j
    match skipSpaces rest with
    | ',' :: rest => bracesRest item size steps members rest
    | '\x7d' :: rest => return (.object (TomlItem.membersToJson members), rest)
    | _ => none

/-- A table between braces, after the opening one. -/
def braces (item : Reader Json) (size : Nat) (cs : List Char) : Option (Json × List Char) :=
  match skipSpaces cs with
  | '\x7d' :: rest => some (.object [], rest)
  | cs => bracesRest item size size [] cs

/-- A value inside at most `depth` lists and tables, in a text of `size`
characters. -/
def value (size : Nat) : (depth : Nat) → Reader Json
  | 0, _ => none
  | _ + 1, [] => none
  | depth + 1, c :: rest =>
    match c with
    | '"' | '\x27' => do
      let (s, rest) ← string size (c :: rest)
      return (.string s, rest)
    | '[' => listRest (value size depth) size size [] rest
    | '\x7b' => braces (value size depth) size rest
    | 't' => (dropWord "true".toList (c :: rest)).map fun rest => (.bool true, rest)
    | 'f' => (dropWord "false".toList (c :: rest)).map fun rest => (.bool false, rest)
    | _ => if looksDated (c :: rest) then dated (c :: rest) else number size (c :: rest)
where
  dropWord : List Char → List Char → Option (List Char)
    | [], rest => some rest
    | w :: ws, c :: rest => if w == c then dropWord ws rest else none
    | _ :: _, [] => none

/-- How deep lists and tables between brackets and braces may be nested. -/
def maxDepth : Nat := 80

/-- What has been read: all tables, and the path of the one that assignments go
to. -/
structure State where
  members : TomlMembers := []
  current : List String := []

namespace State

/-- Open the table of a header. -/
def enter (s : State) (names : List String) (openIn : String → TomlMembers → Option TomlMembers) :
    Option State := do
  let last ← names.getLast?
  let members ← TomlMembers.updateTable .passed (fun _ inner => openIn last inner) .opened
    names.dropLast s.members
  return { members, current := names }

/-- Give a name in the current table a value. -/
def assign (s : State) (names : List String) (j : Json) : Option State := do
  let members ← TomlMembers.updateTable .passed (fun _ inner => assignTo inner names j) .opened
    s.current s.members
  return { s with members }

end State

/-- One statement and the end of its line. -/
def statement (size : Nat) (s : State) (cs : List Char) : Option (State × List Char) :=
  match cs with
  | '[' :: '[' :: rest => do
    let (names, rest) ← path size size rest
    let s ← s.enter names TomlMembers.openItem
    return (s, ← lineEnd? (← expect ']' (← expect ']' rest)))
  | '[' :: rest => do
    let (names, rest) ← path size size rest
    let s ← s.enter names TomlMembers.openTable
    return (s, ← lineEnd? (← expect ']' rest))
  | _ => do
    let ((names, j), rest) ← assignment (value size maxDepth) size cs
    return (← s.assign names j, ← lineEnd? rest)

/-- The statements of a text. `steps` bounds their number. -/
def statements (size : Nat) : (steps : Nat) → State → List Char → Option State
  | 0, _, _ => none
  | steps + 1, s, cs =>
    match skipLines size cs with
    | [] => some s
    | cs => do
      let (s, rest) ← statement size s cs
      statements size steps s rest

/-- Read settings. A mark of the byte order at the front is dropped. -/
def parse (text : String) : Option Json := do
  let cs := match text.toList with
    | '\uFEFF' :: rest => rest
    | cs => cs
  let size := cs.length + 1
  let s ← statements size size {} cs
  return .object (TomlItem.membersToJson s.members)

end DetectionPlan.Toml
