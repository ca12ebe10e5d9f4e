/-
The text of a document: one line without blanks between the parts, or one line
for each part with two more blanks in front at each level. Doubles that are no
number have no text of their own and are written as `null`.
-/
import DetectionPlan.Json.Basic
import DetectionPlan.Decimal.Text

namespace DetectionPlan.Json

/-- A lower case hexadecimal digit. -/
def hexDigit (n : Nat) : Char := if n < 10 then Char.ofNat (48 + n) else Char.ofNat (87 + n)

/-- A character inside a string: quotes, backslashes and control characters are
escaped. -/
def escapeChar (c : Char) : List Char :=
  match c with
  | '"' => ['\\', '"']
  | '\\' => ['\\', '\\']
  | '\n' => ['\\', 'n']
  | '\r' => ['\\', 'r']
  | '\t' => ['\\', 't']
  | c =>
    if c.toNat == 8 then ['\\', 'b']
    else if c.toNat == 12 then ['\\', 'f']
    else if c.toNat < 32 then
      ['\\', 'u', '0', '0', hexDigit (c.toNat / 16), hexDigit (c.toNat % 16)]
    else [c]

/-- A string between quotes. -/
def quote (s : String) : String :=
  "\"" ++ String.ofList (s.toList.flatMap escapeChar) ++ "\""

mutual

/-- The text of a value. -/
def text : Json → String
  | .null => "null"
  | .bool b => if b then "true" else "false"
  | .int n => toString n
  | .double x => if x.isNaN || x.isInf then "null" else DoubleFormat.document.text x
  | .string s => quote s
  | .array items => "[" ++ String.intercalate "," (texts items) ++ "]"
  | .object members => "\x7b" ++ String.intercalate "," (memberTexts members) ++ "\x7d"

def texts : List Json → List String
  | [] => []
  | j :: rest => j.text :: texts rest

def memberTexts : List (String × Json) → List String
  | [] => []
  | (name, j) :: rest => (quote name ++ ":" ++ j.text) :: memberTexts rest

end

/-- Parts between brackets, each on a line of its own. -/
def block (opening closing indent : String) (parts : List String) : String :=
  if parts.isEmpty then opening ++ closing
  else opening ++ "\n" ++ String.intercalate ",\n" (parts.map (indent ++ "  " ++ ·)) ++ "\n" ++
    indent ++ closing

mutual

/-- The text of a value on several lines, all but the first behind an indent. -/
def prettyFrom (indent : String) : Json → String
  | .array items => block "[" "]" indent (prettyItems (indent ++ "  ") items)
  | .object members => block "\x7b" "\x7d" indent (prettyMembers (indent ++ "  ") members)
  | j => j.text

def prettyItems (indent : String) : List Json → List String
  | [] => []
  | j :: rest => prettyFrom indent j :: prettyItems indent rest

def prettyMembers (indent : String) : List (String × Json) → List String
  | [] => []
  | (name, j) :: rest =>
    (quote name ++ ": " ++ prettyFrom indent j) :: prettyMembers indent rest

end

/-- The text of a value on several lines. -/
def pretty : Json → String := prettyFrom ""

end DetectionPlan.Json
