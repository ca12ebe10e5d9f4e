/-
Reading tokens from the left. A parser takes tokens off the front of a list and
answers a value, or says what is wrong. A fault of nesting is final; after
other faults another reading of the same tokens may be tried.
-/
import DetectionPlan.Sql.Lexer
import DetectionPlan.Sql.Syntax

namespace DetectionPlan.Sql

/-- A reader of tokens. -/
abbrev Parser := StateT (List Token) (Except SyntaxFault)

namespace Parser

variable {α : Type}

/-- The tokens do not fit. -/
def fail : Parser α := throw .grammar

/-- The first token, which stays. -/
def peek : Parser (Option Token) := do return (← get).head?

/-- Take the first token. -/
def take : Parser Token := do
  match ← get with
  | t :: rest =>
    set rest
    return t
  | [] => fail

/-- Try a parser. When it fails the tokens stay. -/
def attempt (p : Parser α) : Parser (Option α) := fun tokens =>
  match p tokens with
  | .ok (a, rest) => .ok (some a, rest)
  | .error .nesting => .error .nesting
  | .error _ => .ok (none, tokens)

/-! ## Marks and keywords -/

/-- Take a mark, if it comes first. -/
def skipMark (m : Mark) : Parser Bool := do
  match ← get with
  | .mark first :: rest =>
    if first == m then
      set rest
      return true
    else return false
  | _ => return false

/-- Take a mark, which has to come first. -/
def expectMark (m : Mark) : Parser Unit := do
  unless ← skipMark m do fail

/-- The keyword that comes first. -/
def peekWord : Parser (Option Keyword) := do
  match ← peek with
  | some (.word _ k) => return k
  | _ => return none

/-- Take a keyword, if it comes first. -/
def skipWord (k : Keyword) : Parser Bool := do
  match ← get with
  | .word _ first :: rest =>
    if first == some k then
      set rest
      return true
    else return false
  | _ => return false

/-- Take two keywords, if they come first together. -/
def skipWords (k l : Keyword) : Parser Bool := do
  match ← get with
  | .word _ first :: .word _ second :: rest =>
    if first == some k && second == some l then
      set rest
      return true
    else return false
  | _ => return false

/-- Take a keyword, which has to come first. -/
def expectWord (k : Keyword) : Parser Unit := do
  unless ← skipWord k do fail

/-- Take a keyword that is one of some, if it comes first, for what it stands for. -/
def oneOf (choices : List (Keyword × α)) : Parser (Option α) := do
  match (← peekWord).bind fun k => choices.lookup k with
  | some a =>
    discard take
    return some a
  | none => return none

/-- What a parser reads between parentheses. -/
def parenthesised (p : Parser α) : Parser α := do
  expectMark .leftParen
  let a ← p
  expectMark .rightParen
  return a

/-- What follows a keyword, if the keyword comes first. -/
def after (k : Keyword) (p : Parser α) : Parser (Option α) := do
  if ← skipWord k then return some (← p) else return none

/-! ## Lists -/

/-- Whether what comes first ends a list, so that a comma before it ends the
list as well. -/
def atListEnd : Parser Bool := do
  match ← peek with
  | none => return true
  | some (.word _ (some k)) => return k.endsResult
  | some (.mark m) =>
    return m == .rightParen || m == .semicolon || m == .rightBracket || m == .rightBrace
  | some _ => return false

/-- Whether a list ends here. With `trailing` its last comma may follow the last
item. -/
def endsList (trailing : Bool) : Parser Bool := do
  if ← skipMark .comma then
    if trailing then atListEnd else return false
  else return true

/-- At most `n` items with commas between them. -/
def commaSeparatedIn (trailing : Bool) (item : Parser α) : (n : Nat) → Parser (List α)
  | 0 => fail
  | n + 1 => do
    let first ← item
    if ← endsList trailing then return [first]
    else return first :: (← commaSeparatedIn trailing item n)

/-- One or more items with commas between them. An item takes a token at least,
so there are no more items than tokens. -/
def commaSeparated (trailing : Bool) (item : Parser α) : Parser (List α) := do
  commaSeparatedIn trailing item (← get).length

/-! ## Names -/

/-- A name: a word of any kind, or a text between quotes. -/
def ident : Parser Ident := do
  match ← take with
  | .word name _ => return name
  | .string .single text => return ⟨text, some '\x27'⟩
  | .string .double text => return ⟨text, some '"'⟩
  | _ => fail

/-- The parts of a name after the first, each after a point, and whether they
end in a star. -/
def nameTail (allowStar : Bool) : List Token → Except SyntaxFault ((List Ident × Bool) × List Token)
  | .mark .period :: .word name _ :: rest => do
    let ((parts, star), rest) ← nameTail allowStar rest
    return ((name :: parts, star), rest)
  | .mark .period :: .string .single text :: rest => do
    let ((parts, star), rest) ← nameTail allowStar rest
    return ((⟨text, some '\x27'⟩ :: parts, star), rest)
  | .mark .period :: .mark .star :: rest =>
    if allowStar then .ok (([], true), rest) else .error .grammar
  | .mark .period :: _ => .error .grammar
  | rest => .ok (([], false), rest)

/-- At most `n` names with points between them. -/
def pointSeparatedIn : (n : Nat) → Parser (List Ident)
  | 0 => fail
  | n + 1 => do
    let first ← ident
    if ← skipMark .period then return first :: (← pointSeparatedIn n)
    else return [first]

/-- The name of a table, maybe qualified. -/
def tableName (g : Grammar) : Parser (List Ident) := do
  let parts ← pointSeparatedIn (← get).length
  if g.splitsQuotedNames then
    return parts.flatMap fun i => (i.text.splitOn ".").map fun text => ⟨text, i.quote⟩
  else return parts

/-- A list of names between parentheses; none when there is no parenthesis. -/
def columnNames (trailing : Bool) : Parser (List Ident) := do
  if (← peek) == some (.mark .leftParen) then parenthesised (commaSeparated trailing ident)
  else return []

/-- The name given to what was just read, after `AS` or without it. Without
`AS` a word that `ends` what was read is no name for it. -/
def label (ends : Keyword → Bool) : Parser (Option Ident) := do
  let marked ← skipWord .AS
  match ← get with
  | .word name k :: rest =>
    if marked || !k.any ends then
      set rest
      return some name
    else return none
  | .string .single text :: rest =>
    set rest
    return some ⟨text, some '\x27'⟩
  | .string .double text :: rest =>
    set rest
    return some ⟨text, some '"'⟩
  | _ => if marked then fail else return none

/-- The name given to a table and to its columns. -/
def tableLabel (trailing : Bool) : Parser (Option TableLabel) := do
  match ← label Keyword.endsTable with
  | some name => return some ⟨name, ← columnNames trailing⟩
  | none => return none

end Parser

end DetectionPlan.Sql
