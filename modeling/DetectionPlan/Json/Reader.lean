/-
Reading a document from its text. The grammar is strict: one value, no
trailing commas, no control characters inside strings, surrogate escapes only
in pairs, and containers nested at most 127 deep.

A number without fraction and exponent is an integer while it fits a 64-bit
word. Every other number is a double: its leading digits, as many as fit an
unsigned 64-bit word, are rounded to a double, which one multiplication or
division by a power of ten then brings to its place.
-/
import DetectionPlan.Json.Basic
import DetectionPlan.Decimal.Text

namespace DetectionPlan

/-- What can be wrong with the text of a document. -/
inductive JsonDefect where
  | endOfList | endOfObject | endOfString | endOfValue
  | expectedColon | expectedListEnd | expectedObjectEnd
  | expectedIdent | expectedValue
  | invalidEscape | invalidNumber | numberOutOfRange
  | controlCharacter | keyMustBeString | trailingComma | trailingCharacters
  | endOfHexEscape | loneSurrogate | tooDeep
deriving DecidableEq, Repr

namespace JsonDefect

/-- The wording of a defect. -/
def message : JsonDefect → String
  | endOfList => "EOF while parsing a list"
  | endOfObject => "EOF while parsing an object"
  | endOfString => "EOF while parsing a string"
  | endOfValue => "EOF while parsing a value"
  | expectedColon => "expected `:`"
  | expectedListEnd => "expected `,` or `]`"
  | expectedObjectEnd => "expected `,` or `\x7d`"
  | expectedIdent => "expected ident"
  | expectedValue => "expected value"
  | invalidEscape => "invalid escape"
  | invalidNumber => "invalid number"
  | numberOutOfRange => "number out of range"
  | controlCharacter => "control character (\\u0000-\\u001F) found while parsing a string"
  | keyMustBeString => "key must be a string"
  | trailingComma => "trailing comma"
  | trailingCharacters => "trailing characters"
  | endOfHexEscape => "unexpected end of hex escape"
  | loneSurrogate => "lone leading surrogate in hex escape"
  | tooDeep => "recursion limit exceeded"

end JsonDefect

namespace JsonReader

/-- Drop blanks between the parts of a document. -/
def skipBlanks (cs : List Char) : List Char :=
  cs.dropWhile fun c => c == ' ' || c == '\n' || c == '\t' || c == '\r'

/-- The value of a hexadecimal digit. -/
def hexDigit? (c : Char) : Option Nat :=
  if c.isDigit then some (c.toNat - 48)
  else if 'a' ≤ c && c ≤ 'f' then some (c.toNat - 87)
  else if 'A' ≤ c && c ≤ 'F' then some (c.toNat - 55)
  else none

/-- Four hexadecimal digits. -/
def hexEscape : List Char → Except JsonDefect (Nat × List Char)
  | a :: b :: c :: d :: rest =>
    match hexDigit? a, hexDigit? b, hexDigit? c, hexDigit? d with
    | some a, some b, some c, some d => .ok (((a * 16 + b) * 16 + c) * 16 + d, rest)
    | _, _, _, _ => .error .invalidEscape
  | _ => .error .endOfString

/-- The character of a `\u` escape, which takes two escapes outside the basic
plane. -/
def unicodeEscape (cs : List Char) : Except JsonDefect (Char × List Char) := do
  let (unit, rest) ← hexEscape cs
  if 0xDC00 ≤ unit && unit ≤ 0xDFFF then .error .loneSurrogate
  else if 0xD800 ≤ unit && unit ≤ 0xDBFF then
    match rest with
    | '\\' :: 'u' :: more =>
      let (low, rest) ← hexEscape more
      if 0xDC00 ≤ low && low ≤ 0xDFFF then
        .ok (Char.ofNat (0x10000 + (unit - 0xD800) * 0x400 + (low - 0xDC00)), rest)
      else .error .loneSurrogate
    | [] | ['\\'] => .error .endOfString
    | _ => .error .endOfHexEscape
  else .ok (Char.ofNat unit, rest)

/-- The character of an escape, after its backslash. -/
def escape : List Char → Except JsonDefect (Char × List Char)
  | [] => .error .endOfString
  | c :: rest =>
    match c with
    | '"' => .ok ('"', rest)
    | '\\' => .ok ('\\', rest)
    | '/' => .ok ('/', rest)
    | 'b' => .ok ('\x08', rest)
    | 'f' => .ok ('\x0c', rest)
    | 'n' => .ok ('\n', rest)
    | 'r' => .ok ('\r', rest)
    | 't' => .ok ('\t', rest)
    | 'u' => unicodeEscape rest
    | _ => .error .invalidEscape

/-- The rest of a string up to its closing quote, the characters read so far in
reverse. `steps` bounds the number of characters. -/
def stringRest : Nat → List Char → List Char → Except JsonDefect (String × List Char)
  | 0, _, _ => .error .endOfString
  | _ + 1, _, [] => .error .endOfString
  | steps + 1, read, c :: rest =>
    if c == '"' then .ok (String.ofList read.reverse, rest)
    else if c == '\\' then do
      let (c, rest) ← escape rest
      stringRest steps (c :: read) rest
    else if c.toNat < 0x20 then .error .controlCharacter
    else stringRest steps (c :: read) rest

/-- Append digits to a significand while a 64-bit word holds it. Answers the
significand and the digits left over. -/
def collectDigits : Nat → List Char → Nat × List Char
  | n, [] => (n, [])
  | n, c :: cs =>
    let next := n * 10 + (c.toNat - 48)
    if next ≤ maxWord64 then collectDigits next cs else (n, c :: cs)

/-- Bring a rounded significand to its place. Each step divides by at most
`10 ^ 308`; none when the result is too large for a double. -/
def scaleDouble : Nat → Float → Int → Option Float
  | 0, x, _ => some x
  | steps + 1, x, exponent =>
    if exponent.natAbs ≤ 308 then
      let power := Float.ofScientific 1 false exponent.natAbs
      let scaled := if 0 ≤ exponent then x * power else x / power
      if scaled.isInf then none else some scaled
    else if x == 0.0 then some x
    else if 0 ≤ exponent then none
    else scaleDouble steps (x / 1e308) (exponent + 308)

/-- The double of a significand and an exponent. -/
def doubleOf (negative : Bool) (significand : Nat) (exponent : Int) (rest : List Char) :
    Except JsonDefect (Json × List Char) :=
  match scaleDouble 8 (Float.ofNat significand) exponent with
  | some x => .ok (.double (if negative then -x else x), rest)
  | none => .error .numberOutOfRange

/-- An exponent after its mark, for a number read so far as
`significand * 10 ^ exponent`. -/
def exponentRest (negative : Bool) (significand : Nat) (exponent : Int) (cs : List Char) :
    Except JsonDefect (Json × List Char) :=
  let (down, cs) := match cs with
    | '+' :: rest => (false, rest)
    | '-' :: rest => (true, rest)
    | _ => (false, cs)
  match cs with
  | [] => .error .endOfValue
  | c :: _ =>
    if c.isDigit then
      let n : Int := digitsValue (cs.takeWhile Char.isDigit)
      let rest := cs.dropWhile Char.isDigit
      if 2147483647 < n then
        if significand == 0 || down then .ok (.double (if negative then -0.0 else 0.0), rest)
        else .error .numberOutOfRange
      else doubleOf negative significand (if down then exponent - n else exponent + n) rest
    else .error .invalidNumber

/-- The fraction after its point, for a number read so far as
`significand * 10 ^ exponent`. -/
def fractionRest (negative : Bool) (significand : Nat) (exponent : Int) (cs : List Char) :
    Except JsonDefect (Json × List Char) :=
  let digits := cs.takeWhile Char.isDigit
  let rest := cs.dropWhile Char.isDigit
  if digits.isEmpty then
    .error (if rest.isEmpty then .endOfValue else .invalidNumber)
  else
    let (significand, dropped) := collectDigits significand digits
    let exponent := exponent - (digits.length - dropped.length : Nat)
    match rest with
    | c :: more =>
      if c == 'e' || c == 'E' then exponentRest negative significand exponent more
      else doubleOf negative significand exponent rest
    | [] => doubleOf negative significand exponent rest

/-- A number after its optional sign. -/
def number (negative : Bool) (cs : List Char) : Except JsonDefect (Json × List Char) :=
  let digits := cs.takeWhile Char.isDigit
  let rest := cs.dropWhile Char.isDigit
  if digits.isEmpty then .error (if rest.isEmpty then .endOfValue else .invalidNumber)
  else if 1 < digits.length && digits.head? == some '0' then .error .invalidNumber
  else
    let (significand, dropped) := collectDigits 0 digits
    let exponent : Int := dropped.length
    match rest with
    | '.' :: more => fractionRest negative significand exponent more
    | c :: more =>
      if c == 'e' || c == 'E' then exponentRest negative significand exponent more
      else whole significand dropped exponent rest
    | [] => whole significand dropped exponent rest
where
  whole (significand : Nat) (dropped : List Char) (exponent : Int) (rest : List Char) :
      Except JsonDefect (Json × List Char) :=
    if !dropped.isEmpty then doubleOf negative significand exponent rest
    else if !negative then .ok (.int significand, rest)
    else if significand == 0 || maxInt64 + 1 < significand then
      .ok (.double (-(Float.ofNat significand)), rest)
    else .ok (.int (-(significand : Int)), rest)

/-- The rest of one of the words `null`, `true` and `false`. -/
def word (value : Json) : List Char → List Char → Except JsonDefect (Json × List Char)
  | [], rest => .ok (value, rest)
  | _ :: _, [] => .error .endOfValue
  | w :: ws, c :: rest => if w == c then word value ws rest else .error .expectedIdent

/-- The items of a list after its opening bracket or after an item. -/
def listRest (item : List Char → Except JsonDefect (Json × List Char)) :
    Nat → (first : Bool) → List Json → List Char → Except JsonDefect (Json × List Char)
  | 0, _, _, _ => .error .endOfList
  | steps + 1, first, read, cs =>
    match skipBlanks cs with
    | [] => .error .endOfList
    | ']' :: rest => .ok (.array read.reverse, rest)
    | c :: rest =>
      if first then do
        let (j, rest) ← item (c :: rest)
        listRest item steps false (j :: read) rest
      else if c == ',' then
        match skipBlanks rest with
        | [] => .error .endOfValue
        | ']' :: _ => .error .trailingComma
        | next => do
          let (j, rest) ← item next
          listRest item steps false (j :: read) rest
      else .error .expectedListEnd

/-- One member of an object, from the opening quote of its name. -/
def member (item : List Char → Except JsonDefect (Json × List Char)) (steps : Nat)
    (cs : List Char) : Except JsonDefect ((String × Json) × List Char) := do
  let (name, rest) ← stringRest steps [] (cs.drop 1)
  match skipBlanks rest with
  | ':' :: rest =>
    let (j, rest) ← item rest
    .ok ((name, j), rest)
  | [] => .error .endOfObject
  | _ => .error .expectedColon

/-- The members of an object after its opening brace or after a member. -/
def objectRest (item : List Char → Except JsonDefect (Json × List Char)) (size : Nat) :
    Nat → (first : Bool) → List (String × Json) → List Char → Except JsonDefect (Json × List Char)
  | 0, _, _, _ => .error .endOfObject
  | steps + 1, first, read, cs =>
    match skipBlanks cs with
    | [] => .error .endOfObject
    | c :: rest =>
      if c == '\x7d' then .ok (.object read.reverse, rest)
      else if first then
        if c == '"' then do
          let (m, rest) ← member item size (c :: rest)
          objectRest item size steps false (m :: read) rest
        else .error .keyMustBeString
      else if c == ',' then
        match skipBlanks rest with
        | [] => .error .endOfValue
        | d :: rest =>
          if d == '"' then do
            let (m, rest) ← member item size (d :: rest)
            objectRest item size steps false (m :: read) rest
          else if d == '\x7d' then .error .trailingComma
          else .error .keyMustBeString
      else .error .expectedObjectEnd

/-- One value inside at most `depth - 1` further containers, in a text of `size`
characters. -/
def value (size : Nat) : (depth : Nat) → List Char → Except JsonDefect (Json × List Char)
  | depth, cs =>
    match skipBlanks cs with
    | [] => .error .endOfValue
    | c :: rest =>
      match c with
      | 'n' => word .null ['u', 'l', 'l'] rest
      | 't' => word (.bool true) ['r', 'u', 'e'] rest
      | 'f' => word (.bool false) ['a', 'l', 's', 'e'] rest
      | '"' => do
        let (s, rest) ← stringRest size [] rest
        .ok (.string s, rest)
      | '-' => number true rest
      | '[' =>
        match depth with
        | 0 => .error .tooDeep
        | depth + 1 => listRest (value size depth) size true [] rest
      | '\x7b' =>
        match depth with
        | 0 => .error .tooDeep
        | depth + 1 => objectRest (value size depth) size size true [] rest
      | c => if c.isDigit then number false (c :: rest) else .error .expectedValue

end JsonReader

/-- How deep containers may be nested. -/
def Json.maxDepth : Nat := 127

/-- Read a document that holds one value and nothing else. -/
def Json.parse (text : String) : Except JsonDefect Json := do
  let cs := text.toList
  let (j, rest) ← JsonReader.value (cs.length + 1) maxDepth cs
  if (JsonReader.skipBlanks rest).isEmpty then .ok j else .error .trailingCharacters

end DetectionPlan
