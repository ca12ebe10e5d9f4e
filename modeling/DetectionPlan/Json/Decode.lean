/-
Decoding documents into typed values. A record is read member by member in the
order of the document; the first member that does not decode ends the reading,
and only then are missing members noticed, in the order the record declares
them. A list stands for a record too: its items are the members in that order.
-/
import DetectionPlan.Json.Basic
import DetectionPlan.Decimal.Text
import DetectionPlan.Text.Quoted

namespace DetectionPlan

/-- Why a document does not decode. -/
inductive DecodeError where
  | missingField (name : String)
  | duplicateField (name : String)
  | unknownField (name : String) (known : List String)
  | unknownVariant (name : String) (known : List String)
  | invalidType (got want : String)
  | invalidValue (got want : String)
  | invalidLength (length : Nat) (want : String)
  | noVariant (name : String)
  | refused (reason : String)
deriving DecidableEq, Repr

namespace DecodeError

/-- The names that would have been accepted. -/
def oneOf : List String → String
  | [] => "there are none"
  | [a] => "expected `" ++ a ++ "`"
  | [a, b] => "expected `" ++ a ++ "` or `" ++ b ++ "`"
  | names => "expected one of " ++ String.intercalate ", " (names.map fun n => "`" ++ n ++ "`")

/-- The wording of a decoding error. -/
def message : DecodeError → String
  | missingField name => "missing field `" ++ name ++ "`"
  | duplicateField name => "duplicate field `" ++ name ++ "`"
  | unknownField name known => "unknown field `" ++ name ++ "`, " ++ oneOf known
  | unknownVariant name known => "unknown variant `" ++ name ++ "`, " ++ oneOf known
  | invalidType got want => "invalid type: " ++ got ++ ", expected " ++ want
  | invalidValue got want => "invalid value: " ++ got ++ ", expected " ++ want
  | invalidLength length want => s!"invalid length {length}, expected {want}"
  | noVariant name => "data did not match any variant of untagged enum " ++ name
  | refused reason => reason

end DecodeError

/-- The outcome of decoding. -/
abbrev Decoded := Except DecodeError

namespace Json

/-- A value as a decoding error calls it. A double is written as in a document. -/
def inError : Json → String
  | .null => "null"
  | .bool b => "boolean `" ++ (if b then "true" else "false") ++ "`"
  | .int n => "integer `" ++ toString n ++ "`"
  | .double x => "floating point `" ++ DoubleFormat.document.text x ++ "`"
  | .string s => "string " ++ shown s
  | .array _ => "sequence"
  | .object _ => "map"

/-- The value is of another type than the one wanted. -/
def mistyped (j : Json) (want : String) : Decoded α := .error (.invalidType j.inError want)

def decodeString : Json → Decoded String
  | .string s => .ok s
  | j => j.mistyped "a string"

def decodeBool : Json → Decoded Bool
  | .bool b => .ok b
  | j => j.mistyped "a boolean"

/-- An integer that a signed 64-bit word holds. -/
def decodeInt64 : Json → Decoded Int
  | .int n => if fitsInt64 n then .ok n else .error (.invalidValue (Json.int n).inError "i64")
  | j => j.mistyped "i64"

/-- An integer that an unsigned 64-bit word holds. -/
def decodeSize : Json → Decoded Nat
  | .int n =>
    if 0 ≤ n && n ≤ maxWord64 then .ok n.toNat
    else .error (.invalidValue (Json.int n).inError "usize")
  | j => j.mistyped "usize"

/-- A double; an integer stands for the nearest one. -/
def decodeDouble : Json → Decoded Float
  | .double x => .ok x
  | .int n => .ok (doubleOfInt n)
  | j => j.mistyped "f64"

/-- A string of one character. -/
def decodeChar : Json → Decoded Char
  | .string s =>
    match s.toList with
    | [c] => .ok c
    | _ => .error (.invalidValue (Json.string s).inError "a character")
  | j => j.mistyped "a character"

/-- Nothing, or a value. -/
def decodeOption (decode : Json → Decoded α) : Json → Decoded (Option α)
  | .null => .ok none
  | j => (decode j).map some

def decodeList (decode : Json → Decoded α) : Json → Decoded (List α)
  | .array items => items.mapM decode
  | j => j.mistyped "a sequence"

/-- The members of an object, with their values decoded. -/
def decodeMap (decode : Json → Decoded α) : Json → Decoded (List (String × α))
  | .object members => members.mapM fun (name, j) => (decode j).map (name, ·)
  | j => j.mistyped "a map"

/-- One of a list of named values. A value is given by its name or by an object
whose only member has that name and no content. -/
def decodeVariant (variants : List (String × α)) : Json → Decoded α
  | .string name => named name
  | .object [(name, .null)] => named name
  | .object [(name, j)] => do
    discard <| named name
    j.mistyped "unit"
  | .object _ => .error (.invalidValue "map" "map with a single key")
  | j => j.mistyped "string or map"
where
  named (name : String) : Decoded α :=
    match variants.lookup name with
    | some a => .ok a
    | none => .error (.unknownVariant name (variants.map (·.1)))

end Json

/-- One member of a record: the names it goes by, whether the document must
hold it, and how its value changes the record. -/
structure Slot (ρ : Type) where
  names : List String
  required : Bool
  read : Json → Decoded (ρ → ρ)

namespace Slot

/-- The name in messages. -/
def name (s : Slot ρ) : String := s.names.headD ""

/-- A member the document must hold. -/
def needed (name : String) (decode : Json → Decoded α) (put : α → ρ → ρ) : Slot ρ :=
  ⟨[name], true, fun j => (decode j).map put⟩

/-- A member that keeps the record's initial value when the document does not
hold it. -/
def optional (name : String) (decode : Json → Decoded α) (put : α → ρ → ρ) : Slot ρ :=
  ⟨[name], false, fun j => (decode j).map put⟩

/-- Another name for the same member. -/
def orNamed (s : Slot ρ) (name : String) : Slot ρ := { s with names := s.names ++ [name] }

end Slot

/-- How a record is decoded: its members, the value before any member is read,
and whether members it does not know are refused. -/
structure RecordShape (ρ : Type) where
  /-- The name of the record in messages. -/
  title : String
  slots : List (Slot ρ)
  initial : ρ
  closed : Bool := false

namespace RecordShape

/-- Read one member into the record and note that its slot has been seen. -/
def readMember (shape : RecordShape ρ) (state : ρ × List String) (member : String × Json) :
    Decoded (ρ × List String) :=
  match shape.slots.find? (·.names.contains member.1) with
  | some slot =>
    if state.2.contains slot.name then .error (.duplicateField slot.name)
    else (slot.read member.2).map fun put => (put state.1, slot.name :: state.2)
  | none =>
    if shape.closed then
      .error (.unknownField member.1 (shape.slots.map Slot.name))
    else .ok state

/-- The record as messages about its length call it. -/
def sized (shape : RecordShape ρ) : String :=
  let n := shape.slots.length
  s!"struct {shape.title} with {n} element" ++ (if n == 1 then "" else "s")

/-- Read a record from a list that holds its members in the order of the slots.
The list may end before members that the document need not hold. -/
def decodeItems (shape : RecordShape ρ) (items : List Json) : Decoded ρ := do
  let puts ← (shape.slots.zip items).mapM fun (slot, j) => slot.read j
  match (shape.slots.drop items.length).findIdx? (·.required) with
  | some place => throw (.invalidLength (items.length + place) shape.sized)
  | none =>
    if shape.slots.length < items.length then
      throw (.invalidLength items.length "fewer elements in array")
    return puts.foldl (fun record put => put record) shape.initial

/-- Decode a record. -/
def decode (shape : RecordShape ρ) : Json → Decoded ρ
  | .object members => do
    let (record, seen) ← members.foldlM shape.readMember (shape.initial, [])
    match shape.slots.find? fun s => s.required && !seen.contains s.name with
    | some slot => .error (.missingField slot.name)
    | none => .ok record
  | .array items => shape.decodeItems items
  | j => j.mistyped ("struct " ++ shape.title)

end RecordShape

end DetectionPlan
