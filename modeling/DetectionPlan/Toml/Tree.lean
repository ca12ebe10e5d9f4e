/-
Tables of a settings text while it is read. Statements add members to them, and
`TomlItem.updateTable` finds the table that a path leads to. A table that a
header has opened cannot be opened again, nor be entered by a dotted name; a
table that dotted names have made can only be entered by dotted names.
-/
import DetectionPlan.Json.Basic

namespace DetectionPlan

/-- How a table came to be. -/
inductive TomlOrigin where
  /-- By a header, by braces, or as the whole text. -/
  | opened
  /-- On the way to a table further inside. -/
  | passed
  /-- By a dotted name. -/
  | dotted
deriving DecidableEq, Repr

/-- What a name of a table stands for. -/
inductive TomlItem where
  | value (j : Json)
  | table (origin : TomlOrigin) (members : List (String × TomlItem))
  /-- A list of tables, of which the last one is still growing. -/
  | tables (all : List (List (String × TomlItem)))
deriving Inhabited

/-- The members of a table. -/
abbrev TomlMembers := List (String × TomlItem)

namespace TomlMembers

/-- Write a member, in the place of the one of its name if there is one. -/
def put (name : String) (item : TomlItem) : TomlMembers → TomlMembers
  | [] => [(name, item)]
  | (n, i) :: rest => if n == name then (n, item) :: rest else (n, i) :: put name item rest

/-- Change the table at the end of a path. Tables missing on the way are made,
with the origin `made`; none is entered that may not be. -/
def updateTable (made : TomlOrigin) (change : TomlOrigin → TomlMembers → Option TomlMembers) :
    TomlOrigin → List String → TomlMembers → Option TomlMembers
  | origin, [], members => change origin members
  | _, name :: path, members =>
    match members.lookup name with
    | none => do
      return members.put name (.table made (← updateTable made change made path []))
    | some (.value _) => none
    | some (.table origin inner) =>
      if made == .dotted && origin == .opened then none
      else do return members.put name (.table origin (← updateTable made change origin path inner))
    | some (.tables all) =>
      match all.getLast? with
      | none => none
      | some last => do
        let last ← updateTable made change .opened path last
        return members.put name (.tables (all.dropLast ++ [last]))

/-- Add a new member to a table. A dotted name only adds to a table that dotted
names have made, and a plain one to a table that was opened. -/
def addValue (isDotted : Bool) (name : String) (j : Json) (origin : TomlOrigin)
    (members : TomlMembers) : Option TomlMembers :=
  if isDotted && origin != .dotted then none
  else if (members.lookup name).isSome then none
  else some (members ++ [(name, .value j)])

/-- Add a value under a dotted name. -/
def assign (path : List String) (name : String) (j : Json) (members : TomlMembers) :
    Option TomlMembers :=
  updateTable .dotted (addValue (!path.isEmpty) name j) .opened path members

/-- Open a table for a header. -/
def openTable (name : String) (members : TomlMembers) : Option TomlMembers :=
  match members.lookup name with
  | none => some (members ++ [(name, .table .opened [])])
  | some (.table .passed inner) => some (members.put name (.table .opened inner))
  | some _ => none

/-- Append a table to a list of tables for a header. -/
def openItem (name : String) (members : TomlMembers) : Option TomlMembers :=
  match members.lookup name with
  | none => some (members ++ [(name, .tables [[]])])
  | some (.tables all) => some (members.put name (.tables (all ++ [[]])))
  | some _ => none

end TomlMembers

mutual

/-- An item as a value of a document. -/
def TomlItem.toJson : TomlItem → Json
  | .value j => j
  | .table _ members => .object (TomlItem.membersToJson members)
  | .tables all => .array (TomlItem.tablesToJson all)

def TomlItem.membersToJson : List (String × TomlItem) → List (String × Json)
  | [] => []
  | (name, item) :: rest => (name, item.toJson) :: TomlItem.membersToJson rest

def TomlItem.tablesToJson : List (List (String × TomlItem)) → List Json
  | [] => []
  | members :: rest => .object (TomlItem.membersToJson members) :: TomlItem.tablesToJson rest

end

end DetectionPlan
