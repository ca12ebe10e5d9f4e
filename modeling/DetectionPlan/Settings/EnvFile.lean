/-
Files that add variables to the environment, one `NAME=value` to a line.

A value may be quoted, and single quotes keep everything in it as it is. Other
values may have escapes and take in other variables by `$NAME` or by the name
between braces. A quoted value may go on over several lines. What is malformed
ends the reading; the variables before it count.
-/
import DetectionPlan.Settings.Environment
import DetectionPlan.Text.Alphabetic
import DetectionPlan.Text.Blank

namespace DetectionPlan.EnvFile

/-! ## Lines -/

/-- Where a line leaves off. -/
inductive Place where
  | plain | blank | escaped | single | singleEscaped | double | doubleEscaped
deriving DecidableEq, Repr

/-- The place after one more character outside of quotes. -/
def Place.enter (c : Char) : Place :=
  if c == '\\' then .escaped
  else if c == '"' then .double
  else if c == '\x27' then .single
  else .plain

/-- The place after one more character. -/
def Place.after (p : Place) (c : Char) : Place :=
  match p with
  | plain => if isBlank c && c != '\n' && c != '\r' then blank else enter c
  | blank => enter c
  | escaped => plain
  | single => if c == '\\' then singleEscaped else if c == '\x27' then plain else single
  | singleEscaped => single
  | double => if c == '\\' then doubleEscaped else if c == '"' then plain else double
  | doubleEscaped => double

/-- Follow a line. A `#` after a blank starts a comment, which is cut off; the
line then is complete. Answers what is left of the line and, unless it is
complete, the place. -/
def follow : Place → List Char → List Char × Option Place
  | p, [] => ([], if p == .plain then none else some p)
  | p, c :: rest =>
    if p == .blank && c == '#' then ([], none)
    else
      let (kept, place) := follow (p.after c) rest
      (c :: kept, place)

/-- The first line of a text with its line break, and the rest. -/
def cutLine : List Char → List Char × List Char
  | [] => ([], [])
  | '\n' :: rest => (['\n'], rest)
  | c :: rest =>
    let (line, rest) := cutLine rest
    (c :: line, rest)

/-- A line without its line break. -/
def dropBreak (line : List Char) : List Char :=
  match line.reverse with
  | '\n' :: '\r' :: rest => rest.reverse
  | '\n' :: rest => rest.reverse
  | _ => line

/-- What a text has at its front. -/
inductive Front where
  | done
  | malformed
  | line (text rest : List Char)

/-- The next line of a text, which quotes can make go on behind a line break. A
line that starts with `#` is empty. `steps` bounds the number of lines. -/
def nextLine : (steps : Nat) → (before : List Char) → Place → List Char → Front
  | 0, _, _, _ => .malformed
  | _ + 1, _, p, [] => if p == .plain then .done else .malformed
  | steps + 1, before, p, cs =>
    let (line, rest) := cutLine cs
    if ((before ++ line).dropWhile isBlank).head? == some '#' then .line [] rest
    else
      match follow p line with
      | (kept, none) =>
        let whole := before ++ kept
        .line (if kept.length == line.length then dropBreak whole else whole) rest
      | (kept, some p) => nextLine steps (before ++ kept) p rest

/-! ## Values -/

/-- How a reference to a variable is written. -/
inductive Reference where
  | bare | braced
deriving DecidableEq, Repr

/-- A value while it is read. -/
structure Value where
  /-- The characters so far, in reverse. -/
  read : List Char := []
  inSingle : Bool := false
  inDouble : Bool := false
  isEscaped : Bool := false
  /-- Whether only a comment may follow. -/
  isEnding : Bool := false
  reference : Option Reference := none
  /-- The name in a reference so far, in reverse. -/
  name : List Char := []

namespace Value

/-- Add a character. -/
def push (v : Value) (c : Char) : Value := { v with read := c :: v.read }

/-- Put the variable that has been named in the place of the reference. -/
def resolve (v : Value) (lookUp : String → String) : Value :=
  let text := lookUp (String.ofList v.name.reverse)
  { v with read := text.toList.reverse ++ v.read, name := [], reference := none }

/-- The character of an escape. -/
def unescape? (c : Char) : Option Char :=
  if c == 'n' then some '\n'
  else if c == '\\' || c == '\x27' || c == '"' || c == '$' || c == ' ' then some c
  else none

/-- One more character inside a reference. -/
def stepInReference (lookUp : String → String) (v : Value) (kind : Reference) (c : Char) :
    Value :=
  if isAlphabetic c || c.isDigit then { v with name := c :: v.name }
  else match kind with
    | .bare =>
      if c == '\x7b' && v.name.isEmpty then { v with reference := some .braced }
      else
        let v := v.resolve lookUp
        if c == '$' then { v with reference := some .bare } else v.push c
    | .braced =>
      if c == '\x7d' then v.resolve lookUp else { v with name := c :: v.name }

/-- One more character. -/
def step (lookUp : String → String) (v : Value) (c : Char) : Option Value :=
  if v.isEnding then
    if c == ' ' || c == '\t' then some v else none
  else if v.isEscaped then
    (unescape? c).map fun c => { v.push c with isEscaped := false }
  else if v.inSingle then
    some (if c == '\x27' then { v with inSingle := false } else v.push c)
  else match v.reference with
    | some kind => some (v.stepInReference lookUp kind c)
    | none =>
      if c == '$' then some { v with reference := some .bare }
      else if v.inDouble then
        some (if c == '"' then { v with inDouble := false }
          else if c == '\\' then { v with isEscaped := true }
          else v.push c)
      else if c == '\x27' then some { v with inSingle := true }
      else if c == '"' then some { v with inDouble := true }
      else if c == '\\' then some { v with isEscaped := true }
      else if c == ' ' || c == '\t' then some { v with isEnding := true }
      else some (v.push c)

/-- The rest of a value up to a comment behind a blank. -/
def readRest (lookUp : String → String) : Value → List Char → Option Value
  | v, [] => some v
  | v, c :: rest =>
    if v.isEnding && c == '#' then some v
    else do readRest lookUp (← v.step lookUp c) rest

/-- A whole value. -/
def parse (lookUp : String → String) (cs : List Char) : Option String := do
  let v ← readRest lookUp {} cs
  if v.reference == some .braced || v.inSingle || v.inDouble then none
  else
    let v := v.resolve lookUp
    return String.ofList v.read.reverse

end Value

/-! ## Assignments -/

def skipBlanks (cs : List Char) : List Char := cs.dropWhile isBlank

/-- The name of a variable. -/
def readName (cs : List Char) : Option (String × List Char) :=
  match cs with
  | c :: _ =>
    if c.isAlpha || c == '_' then
      let (name, rest) := cs.span fun c => c.isAlphanum || c == '_' || c == '.'
      some (String.ofList name, skipBlanks rest)
    else none
  | [] => none

/-- The text after an equals sign. -/
def afterEquals : List Char → Option (List Char)
  | '=' :: rest => some (skipBlanks rest)
  | _ => none

/-- The name and the text of an assignment, before which `export` may stand. -/
def readTarget (cs : List Char) : Option (String × List Char) := do
  let (name, rest) ← readName cs
  match afterEquals rest with
  | some rest => return (name, rest)
  | none =>
    if name == "export" then
      let (name, rest) ← readName rest
      return (name, ← afterEquals rest)
    else none

/-- What one line assigns; an empty line or a comment assigns nothing. -/
def readLine (lookUp : String → String) (line : List Char) :
    Option (Option (String × String)) := do
  let cs := skipBlanks (line.reverse.dropWhile isBlank).reverse
  if cs.isEmpty || cs.head? == some '#' then return none
  let (name, rest) ← readTarget cs
  if rest.isEmpty || rest.head? == some '#' then return some (name, "")
  return some (name, ← Value.parse lookUp rest)

/-- Add what the lines of a text assign to the environment. Variables that are
set already keep their text; references see the environment first and then what
the file has assigned. -/
def addLines : (steps : Nat) → (assigned : Environment) → Environment → List Char → Environment
  | 0, _, env, _ => env
  | steps + 1, assigned, env, cs =>
    match nextLine (cs.length + 1) [] .plain cs with
    | .done | .malformed => env
    | .line text rest =>
      let lookUp (name : String) : String :=
        ((env.get? name).orElse fun _ => assigned.get? name).getD ""
      match readLine lookUp text with
      | none => env
      | some none => addLines steps assigned env rest
      | some (some (name, value)) =>
        let env := if env.contains name then env else env.insert name value
        addLines steps (assigned.insert name value) env rest

end DetectionPlan.EnvFile

namespace DetectionPlan

/-- The environment with the variables of a file added. -/
def Environment.withFile (env : Environment) (text : String) : Environment :=
  let cs := match text.toList with
    | '\uFEFF' :: rest => rest
    | cs => cs
  EnvFile.addLines (cs.length + 1) .empty env cs

end DetectionPlan
