/-
Cutting the text of a query into tokens. Blanks and comments part tokens and
are dropped. The only faults are literals, names and comments that do not end.
-/
import DetectionPlan.Sql.Token
import DetectionPlan.Sql.Dialect
import DetectionPlan.Text.Blank

namespace DetectionPlan.Sql.Lexer

/-! ## Quoted texts -/

/-- What a character after a backslash stands for. -/
def escaped : Char → Char
  | '0' => Char.ofNat 0
  | 'a' => Char.ofNat 7
  | 'b' => Char.ofNat 8
  | 'f' => Char.ofNat 12
  | 'n' => '\n'
  | 'r' => '\r'
  | 't' => '\t'
  | 'Z' => Char.ofNat 26
  | c => c

/-- The text up to the closing quote, and what follows it. A doubled quote is
part of the text, as is, with `backslash`, any character after a backslash.
With `unescape` such pairs become the character they stand for. -/
def untilQuote (unescape backslash : Bool) (quote : Char) :
    List Char → Option (List Char × List Char)
  | [] => none
  | [c] => if c == quote then some ([], []) else none
  | c :: d :: rest =>
    let goOn (shown : List Char) (more : Option (List Char × List Char)) :=
      more.map fun (text, rest) => (shown ++ text, rest)
    if c == quote then
      if d == quote then
        goOn (if unescape then [c] else [c, d]) (untilQuote unescape backslash quote rest)
      else some ([], d :: rest)
    else if backslash && c == '\\' then
      goOn (if unescape then [escaped d] else [c, d]) (untilQuote unescape backslash quote rest)
    else goOn [c] (untilQuote unescape backslash quote (d :: rest))

/-- The text up to three closing quotes, and what follows them. -/
def untilTripleQuote (quote : Char) : List Char → Option (List Char × List Char)
  | [] => none
  | c :: rest =>
    if c == quote && rest.take 2 == [quote, quote] then some ([], rest.drop 2)
    else (untilTripleQuote quote rest).map fun (text, rest) => (c :: text, rest)

/-- A token made of a quoted text, or the fault of a text that does not end. -/
def quoted (make : String → Token) :
    Option (List Char × List Char) → Except SyntaxFault (Option Token × List Char)
  | some (text, rest) => .ok (some (make (String.ofList text)), rest)
  | none => .error .token

/-- A string literal, from after its opening quote. -/
def string (s : ParserSettings) (quote : Char) (rest : List Char) :
    Except SyntaxFault (Option Token × List Char) :=
  if s.grammar.hasTripleQuotes && rest.take 2 == [quote, quote] then
    quoted (.string (.triple (quote == '"'))) (untilTripleQuote quote (rest.drop 2))
  else
    quoted (.string (if quote == '"' then .double else .single))
      (untilQuote s.unescape s.grammar.hasBackslashEscapes quote rest)

/-- The quote that closes what a quote opens. -/
def closing (quote : Char) : Char := if quote == '[' then ']' else quote

/-! ## Comments -/

/-- What follows the comment that the text starts in. Comments nest. -/
def afterComment : (depth : Nat) → List Char → Option (List Char)
  | depth, '/' :: '*' :: rest => afterComment (depth + 1) rest
  | depth, '*' :: '/' :: rest => if depth == 0 then some rest else afterComment (depth - 1) rest
  | depth, _ :: rest => afterComment depth rest
  | _, [] => none

/-- What follows the line that the text starts in. -/
def afterLine (cs : List Char) : List Char := cs.dropWhile (· != '\n')

/-! ## Numbers -/

/-- A hexadecimal digit of either case. -/
def isHexDigit (c : Char) : Bool :=
  c.isDigit || ('a' ≤ c && c ≤ 'f') || ('A' ≤ c && c ≤ 'F')

/-- The exponent that a text starts with. Without digits there is none. -/
def exponent : List Char → List Char × List Char
  | [] => ([], [])
  | e :: rest =>
    let (sign, digits) := match rest with
      | c :: more => if c == '+' || c == '-' then ([c], more) else ([], rest)
      | [] => ([], [])
    if (e == 'e' || e == 'E') && (digits.head?.any Char.isDigit) then
      (e :: sign ++ digits.takeWhile Char.isDigit, digits.dropWhile Char.isDigit)
    else ([], e :: rest)

/-- A token that starts with a digit or a point. -/
def number (g : Grammar) (cs : List Char) : Token × List Char :=
  let whole := cs.takeWhile Char.isDigit
  let rest := cs.dropWhile Char.isDigit
  if whole == ['0'] && rest.head? == some 'x' then
    let rest := rest.drop 1
    (.string .hex (String.ofList (rest.takeWhile isHexDigit)), rest.dropWhile isHexDigit)
  else
    let point := rest.takeWhile (· == '.') |>.take 1
    let rest := rest.drop point.length
    let fraction := rest.takeWhile Char.isDigit
    let rest := rest.dropWhile Char.isDigit
    if whole.isEmpty && fraction.isEmpty then (.mark .period, rest)
    else
      let (power, rest) := exponent rest
      let digits := whole ++ point ++ fraction ++ power
      let tail := rest.takeWhile g.isNamePart
      if g.hasNumericNames && power.isEmpty && !tail.isEmpty then
        (Token.ofWord (String.ofList (digits ++ tail)), rest.dropWhile g.isNamePart)
      else match rest with
        | 'L' :: rest => (.number (String.ofList digits) true, rest)
        | _ => (.number (String.ofList digits) false, rest)

/-! ## Marks and words -/

/-- Marks of two characters. -/
def longMark? : Char → Char → Option Mark
  | ':', ':' => some .doubleColon
  | '=', '>' => some .arrow
  | '=', '=' => some .doubleEq
  | '|', '|' => some .concat
  | '!', '=' => some .notEq
  | '<', '>' => some .notEq
  | '<', '=' => some .ltEq
  | '>', '=' => some .gtEq
  | _, _ => none

/-- Marks of one character. -/
def mark? : Char → Option Mark
  | '(' => some .leftParen
  | ')' => some .rightParen
  | ']' => some .rightBracket
  | '\x7d' => some .rightBrace
  | ',' => some .comma
  | ';' => some .semicolon
  | '+' => some .plus
  | '-' => some .minus
  | '*' => some .star
  | '/' => some .slash
  | '%' => some .percent
  | '=' => some .eq
  | '<' => some .lt
  | '>' => some .gt
  | _ => none

/-- Whether a line comment starts here. -/
def startsLineComment (g : Grammar) (c : Char) (rest : List Char) : Bool :=
  (c == '-' && rest.head? == some '-' &&
    (!g.needsBlankAfterDashes || (rest.drop 1).head?.any isBlank)) ||
  (c == '#' && g.hasHashComments) ||
  (c == '/' && rest.head? == some '/' && g.hasSlashComments)

/-- The word or mark that starts with `c`. -/
def wordOrMark (g : Grammar) (c : Char) (rest : List Char) : Option Token × List Char :=
  match rest.head?.bind (longMark? c) with
  | some m => (some (.mark m), rest.drop 1)
  | none =>
    match mark? c with
    | some m => (some (.mark m), rest)
    | none =>
      if g.isNameStart c then
        (some (Token.ofWord (String.ofList (c :: rest.takeWhile g.isNamePart))),
          rest.dropWhile g.isNamePart)
      else if isBlank c then (none, rest)
      else (some (.other c), rest)

/-! ## The text of a query -/

/-- The token or blank that starts with `c`, and what follows it. -/
def next (s : ParserSettings) (c : Char) (rest : List Char) :
    Except SyntaxFault (Option Token × List Char) :=
  let g := s.grammar
  let marked (make : StringKind) :=
    quoted (.string make) (untilQuote s.unescape true '\x27' (rest.drop 1))
  if (c == 'n' || c == 'N') && rest.head? == some '\x27' then marked .national
  else if (c == 'x' || c == 'X') && rest.head? == some '\x27' then marked .hex
  else if c == '\x27' || (c == '"' && !g.isNameQuote c) then string s c rest
  else if g.isNameQuote c then
    quoted (fun name => .word ⟨name, some c⟩ none) (untilQuote s.unescape false (closing c) rest)
  else if c.isDigit || c == '.' then
    let (token, rest) := number g (c :: rest)
    .ok (some token, rest)
  else if startsLineComment g c rest then .ok (none, afterLine rest)
  else if c == '/' && rest.head? == some '*' then
    match afterComment 0 (rest.drop 1) with
    | some rest => .ok (none, rest)
    | none => .error .token
  else .ok (wordOrMark g c rest)

/-- Cut a text into tokens, in at most `steps` of them. Every step takes a
character off the text, so its length is steps enough. -/
def scanIn (s : ParserSettings) : (steps : Nat) → List Char → Except SyntaxFault (List Token)
  | _, [] => .ok []
  | 0, _ => .error .token
  | steps + 1, c :: rest => do
    let (token, rest) ← next s c rest
    let tokens ← scanIn s steps rest
    .ok (token.toList ++ tokens)

/-- The tokens of a text. -/
def scan (s : ParserSettings) (text : String) : Except SyntaxFault (List Token) :=
  scanIn s text.length text.toList

end DetectionPlan.Sql.Lexer
