/-
Reading a period from text: `P`, then date components, then after a `T` time
components. A component is digits and a unit; letters are read in either case.
Of several components of one unit the last counts.
-/
import DetectionPlan.Period.Basic
import DetectionPlan.Text.Blank

namespace DetectionPlan.Period

/-- A component as written: its digits with point or comma, and its unit. -/
abbrev Component := List Char × Char

/-- Characters of a component's number. -/
def isNumberChar (c : Char) : Bool := c.isDigit || c == '.' || c == ','

/-- Cut a section into components. `number` holds, in reverse, the number being
read. -/
def splitComponents (number : List Char) : List Char → Except PeriodDefect (List Component)
  | [] =>
    if number.isEmpty then .ok []
    else .error (.valueWithoutUnit (String.ofList number.reverse))
  | c :: rest =>
    if isNumberChar c then splitComponents (c :: number) rest
    else if c.isAlpha then
      if number.isEmpty then .error (.unitWithoutValue c)
      else (splitComponents [] rest).map ((number.reverse, c) :: ·)
    else .error (.unexpectedCharacter c)

/-- A whole number that a 32-bit word holds. -/
def readWhole (cs : List Char) : Except PeriodDefect UInt32 :=
  match readDigits? cs with
  | some n =>
    if n ≤ maxWord32 then .ok n.toUInt32 else .error (.notWhole (String.ofList cs))
  | none => .error (.notWhole (String.ofList cs))

/-- Seconds with up to three decimals, as seconds and thousandths. -/
def readSeconds (cs : List Char) : Except PeriodDefect (UInt32 × UInt32) :=
  let dotted := cs.map fun c => if c == ',' then '.' else c
  let whole := dotted.takeWhile (· != '.')
  match dotted.dropWhile (· != '.') with
  | [] => do
    let n ← readWhole dotted
    .ok (n, 0)
  | _ :: fraction =>
    if fraction.isEmpty || 3 < fraction.length then .error (.fractionDigits (String.ofList cs))
    else do
      let seconds ← if whole.isEmpty then .ok 0 else readWhole whole
      let millis ← readWhole (fraction ++ List.replicate (3 - fraction.length) '0')
      .ok (seconds, millis)

/-- Enter a date component. -/
def addDate (p : Period) (c : Component) : Except PeriodDefect Period := do
  let n ← readWhole c.1
  match c.2.toUpper with
  | 'Y' => .ok { p with years := n }
  | 'M' => .ok { p with months := n }
  | 'W' => .ok { p with weeks := n }
  | 'D' => .ok { p with days := n }
  | unit => .error (.unknownDateUnit unit)

/-- Enter a time component. -/
def addTime (p : Period) (c : Component) : Except PeriodDefect Period :=
  match c.2.toUpper with
  | 'H' => do
    let n ← readWhole c.1
    .ok { p with hours := n }
  | 'M' => do
    let n ← readWhole c.1
    .ok { p with minutes := n }
  | 'S' => do
    let (seconds, millis) ← readSeconds c.1
    .ok { p with seconds, millis }
  | unit => .error (.unknownTimeUnit unit)

/-- Either case of the letter that starts the time section. -/
def isTimeMark (c : Char) : Bool := c == 'T' || c == 't'

/-- A period after its leading letter. -/
def readBody (body : List Char) : Except PeriodDefect Period := do
  if body.isEmpty then throw .noComponents
  let date := body.takeWhile (!isTimeMark ·)
  let time ← match body.dropWhile (!isTimeMark ·) with
    | [] => pure none
    | [_] => throw .emptyTimeSection
    | _ :: time => pure (some time)
  let p ← (← splitComponents [] date).foldlM addDate zero
  match time with
  | none => .ok p
  | some time => (← splitComponents [] time).foldlM addTime p

/-- A period without blanks around it. -/
def read (cs : List Char) : Except PeriodDefect Period :=
  match cs with
  | c :: body => if c == 'P' || c == 'p' then readBody body else .error .noDesignator
  | [] => .error .noDesignator

/-- Read a period; blanks around it do not count. -/
def parse (s : String) : Outcome Period :=
  (read (trimBy isBlank s.toList)).mapError (.invalidPeriod s)

/-- Read a period when there is a text, and take the default otherwise. -/
def parseOr (s : Option String) (default : Period) : Outcome Period :=
  match s with
  | some s => parse s
  | none => .ok default

/-- A period in a document is its text. -/
def decode (j : Json) : Decoded Period := do
  let s ← j.decodeString
  (parse s).mapError (.refused ·.message)

end DetectionPlan.Period
