/-
The parts of a settings text below its structure: blanks and comments, names,
strings, numbers, dates and times. A reader takes characters from the front of
a text and answers with what it has read and the rest of the text.
-/
import DetectionPlan.Calendar.Reading
import DetectionPlan.Json.Reader
import DetectionPlan.Text.Parts

namespace DetectionPlan.Toml

/-- A reader of the front of a text. -/
abbrev Reader (α : Type) := List Char → Option (α × List Char)

def isSpace (c : Char) : Bool := c == ' ' || c == '\t'

def skipSpaces (cs : List Char) : List Char := cs.dropWhile isSpace

/-- The text after a line break at its front. -/
def newline? : List Char → Option (List Char)
  | '\n' :: rest => some rest
  | '\r' :: '\n' :: rest => some rest
  | _ => none

/-- Characters that may stand in comments and strings. -/
def isPrintable (c : Char) : Bool := c == '\t' || (0x20 ≤ c.toNat && c.toNat != 0x7F)

/-- Drop a comment up to the end of its line. -/
def skipComment : List Char → List Char
  | '#' :: rest => rest.dropWhile isPrintable
  | cs => cs

/-- The text after the end of a line, before which only a comment may stand. -/
def lineEnd? (cs : List Char) : Option (List Char) :=
  match skipComment (skipSpaces cs) with
  | [] => some []
  | rest => newline? rest

/-- Drop blanks, comments and line breaks. `steps` bounds their number. -/
def skipLines : (steps : Nat) → List Char → List Char
  | 0, cs => cs
  | steps + 1, cs =>
    let rest := skipComment (skipSpaces cs)
    match newline? rest with
    | some rest => skipLines steps rest
    | none => rest

/-! ## Strings -/

/-- A character given by a number of hexadecimal digits. -/
def hexChar (digits : Nat) (cs : List Char) : Option (Char × List Char) := do
  let taken := cs.take digits
  if taken.length < digits then none
  let values ← taken.mapM JsonReader.hexDigit?
  let n := values.foldl (fun n d => n * 16 + d) 0
  if n.isValidChar then some (Char.ofNat n, cs.drop digits) else none

/-- The character of an escape, after its backslash. -/
def escape : List Char → Option (Char × List Char)
  | [] => none
  | c :: rest =>
    match c with
    | 'b' => some ('\x08', rest)
    | 't' => some ('\t', rest)
    | 'n' => some ('\n', rest)
    | 'f' => some ('\x0c', rest)
    | 'r' => some ('\r', rest)
    | '"' => some ('"', rest)
    | '\\' => some ('\\', rest)
    | 'u' => hexChar 4 rest
    | 'U' => hexChar 8 rest
    | _ => none

/-- The rest of a string between quotes, the characters read so far in reverse. -/
def basicRest : (steps : Nat) → List Char → Reader String
  | 0, _, _ => none
  | _ + 1, _, [] => none
  | steps + 1, read, c :: rest =>
    if c == '"' then some (String.ofList read.reverse, rest)
    else if c == '\\' then do
      let (c, rest) ← escape rest
      basicRest steps (c :: read) rest
    else if isPrintable c then basicRest steps (c :: read) rest
    else none

/-- The rest of a string between single quotes, which knows no escapes. -/
def literalRest (cs : List Char) : Option (String × List Char) :=
  match cs.span fun c => c != '\x27' && isPrintable c with
  | (text, '\x27' :: rest) => some (String.ofList text, rest)
  | _ => none

/-- The closing quotes of a string over several lines: three of them, before
which up to two belong to the string. Answers these two. -/
def closing? (quote : Char) (cs : List Char) : Option (List Char × List Char) :=
  let quotes := (cs.takeWhile (· == quote)).length
  if quotes < 3 then none
  else
    let kept := min (quotes - 3) 2
    some (List.replicate kept quote, cs.drop (kept + 3))

/-- Drop blanks and line breaks. `steps` bounds the number of lines. -/
def skipBreaks : (steps : Nat) → List Char → List Char
  | 0, cs => cs
  | steps + 1, cs =>
    match newline? (skipSpaces cs) with
    | some rest => skipBreaks steps rest
    | none => skipSpaces cs

/-- Drop blanks and line breaks after a backslash at the end of a line. -/
def skipFolded (steps : Nat) (cs : List Char) : Option (List Char) :=
  (newline? (skipSpaces cs)).map (skipBreaks steps)

/-- The rest of a string over several lines, the characters read so far in
reverse. Line breaks are read as line feeds. -/
def linesRest (quote : Char) : (steps : Nat) → List Char → Reader String
  | 0, _, _ => none
  | _ + 1, _, [] => none
  | steps + 1, read, c :: rest =>
    match closing? quote (c :: rest) with
    | some (kept, rest) => some (String.ofList (read.reverse ++ kept), rest)
    | none =>
      match newline? (c :: rest) with
      | some rest => linesRest quote steps ('\n' :: read) rest
      | none =>
        if c == '\\' && quote == '"' then
          match skipFolded steps rest with
          | some rest => linesRest quote steps read rest
          | none => do
            let (c, rest) ← escape rest
            linesRest quote steps (c :: read) rest
        else if isPrintable c then linesRest quote steps (c :: read) rest
        else none

/-- A line break right after the opening quotes does not belong to the string. -/
def dropNewline (cs : List Char) : List Char := (newline? cs).getD cs

/-- A string, from its first quote. -/
def string (size : Nat) : Reader String
  | '"' :: '"' :: '"' :: rest => linesRest '"' size [] (dropNewline rest)
  | '\x27' :: '\x27' :: '\x27' :: rest => linesRest '\x27' size [] (dropNewline rest)
  | '"' :: rest => basicRest size [] rest
  | '\x27' :: rest => literalRest rest
  | _ => none

/-! ## Names -/

/-- Characters of names without quotes. -/
def isNameChar (c : Char) : Bool := c.isAlphanum || c == '_' || c == '-'

/-- One name, between quotes on one line or without quotes. -/
def name (size : Nat) : Reader String
  | '"' :: rest => basicRest size [] rest
  | '\x27' :: rest => literalRest rest
  | cs =>
    match cs.span isNameChar with
    | ([], _) => none
    | (name, rest) => some (String.ofList name, rest)

/-- Names with dots between them. -/
def path (size : Nat) : (steps : Nat) → Reader (List String)
  | 0, _ => none
  | steps + 1, cs => do
    let (first, rest) ← name size (skipSpaces cs)
    match skipSpaces rest with
    | '.' :: rest =>
      let (others, rest) ← path size steps rest
      return (first :: others, rest)
    | rest => return ([first], rest)

/-! ## Numbers -/

/-- Digits, between which single underscores may stand. -/
def digits (isDigit : Char → Bool) : (steps : Nat) → Reader (List Char)
  | 0, _ => none
  | _ + 1, [] => none
  | steps + 1, c :: rest =>
    if isDigit c then
      match rest with
      | '_' :: next => do
        let (others, rest) ← digits isDigit steps next
        return (c :: others, rest)
      | d :: _ =>
        if isDigit d then do
          let (others, rest) ← digits isDigit steps rest
          return (c :: others, rest)
        else some ([c], rest)
      | [] => some ([c], [])
    else none

/-- The digits of a decimal number, which has no zeros in front. -/
def wholeDigits (size : Nat) : Reader (List Char)
  | '0' :: rest => some (['0'], rest)
  | cs => digits Char.isDigit size cs

/-- A sign, of which the plus is dropped. -/
def sign : List Char → List Char × List Char
  | '-' :: rest => (['-'], rest)
  | '+' :: rest => ([], rest)
  | cs => ([], cs)

/-- A fraction with its point, if there is one. -/
def fraction (size : Nat) : Reader (List Char)
  | '.' :: rest => do
    let (ds, rest) ← digits Char.isDigit size rest
    return ('.' :: ds, rest)
  | cs => some ([], cs)

/-- An exponent, if there is one. -/
def exponent (size : Nat) : Reader (List Char)
  | c :: rest =>
    if c == 'e' || c == 'E' then do
      let (s, rest) := sign rest
      let (ds, rest) ← digits Char.isDigit size rest
      return ('e' :: (s ++ ds), rest)
    else some ([], c :: rest)
  | [] => some ([], [])

/-- A decimal number. With a fraction or an exponent it is a double, which has to
be finite unless it is negative. -/
def decimal (size : Nat) (cs : List Char) : Option (Json × List Char) := do
  let (s, rest) := sign cs
  let (whole, rest) ← wholeDigits size rest
  let (frac, rest) ← fraction size rest
  let (exp, rest) ← exponent size rest
  let text := String.ofList (s ++ whole ++ frac ++ exp)
  if frac.isEmpty && exp.isEmpty then return (.int (← readInt64? text), rest)
  else
    let x ← readDouble? text
    if x.isInf && x > 0 then none else return (.double x, rest)

/-- A number in another base, after its mark. -/
def based (size base : Nat) (isDigit : Char → Bool) (cs : List Char) :
    Option (Json × List Char) := do
  let (ds, rest) ← digits isDigit size cs
  let values ← ds.mapM JsonReader.hexDigit?
  let n := values.foldl (fun n d => n * base + d) 0
  return (.int (← int64? n), rest)

/-- Infinity or no number, after a sign. -/
def special (cs : List Char) : Option (Json × List Char) :=
  let (s, rest) := sign cs
  match rest with
  | 'i' :: 'n' :: 'f' :: rest =>
    some (.double (if s.isEmpty then 1.0 / 0.0 else -1.0 / 0.0), rest)
  | 'n' :: 'a' :: 'n' :: rest => some (.double (0.0 / 0.0), rest)
  | _ => none

/-- A number. -/
def number (size : Nat) (cs : List Char) : Option (Json × List Char) :=
  match cs with
  | '0' :: 'x' :: rest => based size 16 (fun c => (JsonReader.hexDigit? c).isSome) rest
  | '0' :: 'o' :: rest => based size 8 (fun c => '0' ≤ c && c ≤ '7') rest
  | '0' :: 'b' :: rest => based size 2 (fun c => c == '0' || c == '1') rest
  | _ => (special cs).orElse fun _ => decimal size cs

/-! ## Dates and times -/

/-- A date of the calendar. -/
def date (cs : List Char) : Option (String × List Char) := do
  let (d, rest) ← Calendar.readDate cs
  return (padZeros 4 d.year.toNat ++ "-" ++ padZeros 2 (d.month + 1) ++ "-" ++ padZeros 2 d.day,
    rest)

/-- A time of the day, its fraction cut to nine digits and without zeros at the
end. -/
def time (cs : List Char) : Option (String × List Char) := do
  let (clock, rest) ← Calendar.readClock cs
  let (digits, rest) ← Calendar.readFraction rest
  let kept := ((digits.take 9).reverse.dropWhile (· == '0')).reverse
  let fraction := if kept.isEmpty then "" else "." ++ String.ofList kept
  return (padZeros 2 clock.hour ++ ":" ++ padZeros 2 clock.minute ++ ":" ++
    padZeros 2 clock.second ++ fraction, rest)

/-- An offset from UTC, if there is one. No offset at all counts as positive. -/
def offset (cs : List Char) : Option (String × List Char) :=
  match cs with
  | 'Z' :: rest | 'z' :: rest => some ("Z", rest)
  | '+' :: rest => signed "+" rest
  | '-' :: rest => signed "-" rest
  | _ => some ("", cs)
where
  signed (s : String) (cs : List Char) : Option (String × List Char) := do
    let ((hour, minute), rest) ← Calendar.readHours cs
    let s := if hour == 0 && minute == 0 then "+" else s
    return (s ++ padZeros 2 hour ++ ":" ++ padZeros 2 minute, rest)

/-- Whether a text starts like a date or like a time. -/
def looksDated (cs : List Char) : Bool :=
  let digits := (cs.takeWhile Char.isDigit).length
  match cs.drop digits with
  | '-' :: _ => digits == 4
  | ':' :: _ => digits == 2
  | _ => false

/-- The time after a date, if there is one. -/
def timeAfterDate (cs : List Char) : Option (String × List Char) :=
  match cs with
  | c :: rest =>
    if c == 'T' || c == 't' || (c == ' ' && (rest.head?.any Char.isDigit)) then do
      let (t, rest) ← time rest
      let (z, rest) ← offset rest
      return ("T" ++ t ++ z, rest)
    else some ("", cs)
  | [] => some ("", [])

/-- The name under which a document holds a date or a time. -/
def dateMember : String := "$__toml_private_datetime"

/-- A date, a time, or both. -/
def dated (cs : List Char) : Option (Json × List Char) := do
  let (text, rest) ← match cs.drop 2 with
    | ':' :: _ => time cs
    | _ => do
      let (d, rest) ← date cs
      let (t, rest) ← timeAfterDate rest
      pure (d ++ t, rest)
  return (.object [(dateMember, .string text)], rest)

end DetectionPlan.Toml
