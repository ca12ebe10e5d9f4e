/-
Where the expansions of placeholder functions stand. A prepared query is read as the query with each
call of a placeholder function swapped for what its text is read as, by itself when that is one
operand and between parentheses otherwise, whatever stands around the call (`prepare_places`).
-/
import DetectionPlan.Proofs.Expansion.Idempotence
import DetectionPlan.Proofs.Sql.Swap.Statement

namespace DetectionPlan

open Sql (Argument Call Expr ParserSettings Query Statement)
open Outcome (bind_ok_iff)

namespace Expansion

variable {x : Expansion} {query : String} {q q' : Query} {properties : Properties}

/-! ## What becomes of a query -/

theorem asOperand_eq (e : Expr) : asOperand e = if e.isOperand then e else .nested e := by
  cases e <;> rfl

/-- Expanding a query gives a query, with something in the place of each call. -/
theorem turns_of_expand {S : Call → Prop} {R : Call → Option Expr → Prop} (swaps : Sql.Swaps x.step S R)
    (given : ∀ c ∈ q.calls, S c) (plain : ∀ t ∈ q.bracketed, t.startsRows = false) {s : Statement}
    (expanded : x.expand (.query q) = .ok (s, properties)) : ∃ q', s = .query q' ∧ q.Turns R q' := by
  obtain ⟨⟨q', left⟩, replaced, made⟩ := bind_ok_iff.mp expanded
  obtain ⟨rfl, -⟩ := Prod.mk.inj (Except.ok.inj made)
  exact ⟨q', rfl, (q.replace_turns swaps given plain replaced trivial).1⟩

/-- What a call expands to is read, if at all, with so low a limit, and may stand in its place. -/
def ExpandsPlaceable (x : Expansion) (limit : Nat) (c : Call) : Prop :=
  ∀ text e, x.Expands c text → x.parser.parseExpr text = .ok e →
    { x.parser with recursionLimit := limit }.parseExpr text = .ok e ∧ e.Placeable x.parser

/-! ## A placeholder for any text -/

/-- A placeholder function that becomes its last argument. -/
def verbatimFunction : Placeholder where
  name := "verbatim"
  expand _ texts := pure (texts.getLastD "")

/-- A strict request that knows this function alone. -/
def verbatim (parser : ParserSettings) : Expansion where
  parser
  registry := ⟨[verbatimFunction]⟩
  scope := { expressions := .ansi (.epoch .milliseconds), interval := ⟨0, 10, by decide⟩ }
  strict := true

/-- A call that becomes a text. -/
def verbatimCall (text : String) : Call where
  name := [⟨"verbatim", none⟩]
  arguments := .list none [.positional (.literal (.string .single text))]

section

variable {parser : ParserSettings} {text : String} {e e' : Expr}

theorem replace_verbatim (read : parser.parseExpr text = .ok e) :
    (Expr.call (verbatimCall text)).replace (verbatim parser).step = pure (asOperand e) := by
  funext given
  have callee (arguments : Sql.Arguments) :
      (verbatim parser).callee? ⟨[⟨"verbatim", none⟩], arguments⟩ = some ("verbatim", verbatimFunction) := by
    simp [callee?, verbatim, PlaceholderRegistry.get?, PlaceholderRegistry.goesBy, verbatimFunction]
  have call : (Expr.call (verbatimCall text)).replace (verbatim parser).step =
      (verbatim parser).step (.call (verbatimCall text)) := by
    rw [Expr.replace]
    rfl
  rw [call]
  exact run_step (callee _) rfl rfl read

theorem expandsPlaceable_verbatim {limit : Nat} (read : parser.parseExpr text = .ok e)
    (shallow : { parser with recursionLimit := limit }.parseExpr text = .ok e) (placeable : e.Placeable parser) :
    (verbatim parser).ExpandsPlaceable limit (verbatimCall text) := by
  rintro text' e' ⟨p, texts, given, left, handed, expanded⟩ read'
  obtain ⟨name, handed'⟩ := handed.of_calls nofun
  obtain rfl := Except.ok.inj handed'
  obtain ⟨name, _, _, _, callee, -⟩ := handed
  obtain rfl := List.mem_singleton.mp (mem_of_callee? callee)
  obtain ⟨rfl, -⟩ := Prod.mk.inj (Except.ok.inj expanded)
  obtain rfl := Except.ok.inj (read.symm.trans read')
  exact ⟨shallow, placeable⟩

/-- A call of a function that is no placeholder. -/
def otherCall (a : Argument) : Expr := .call ⟨[⟨"f", none⟩], .list none [a]⟩

theorem replace_otherCall (replaced : e.replace (verbatim parser).step = pure e') :
    (otherCall (.positional e)).replace (verbatim parser).step = pure (otherCall (.positional e')) := by
  have arguments : Sql.replaceArguments (verbatim parser).step [.positional e] = pure [.positional e'] := by
    simp [Sql.replaceArguments, Argument.replace, replaced]
  have stays : (verbatim parser).step (otherCall (.positional e')) = pure (otherCall (.positional e')) := by
    have other : asciiLower "verbatim" ≠ asciiLower "f" := by decide +kernel
    simp [otherCall, step, callee?, verbatim, PlaceholderRegistry.get?, PlaceholderRegistry.goesBy,
      verbatimFunction, other]
  simp only [otherCall, Expr.replace, Call.replace, Sql.Arguments.replace, arguments, pure_bind]
  exact stays

end

/-! ## A compound expansion and an operand -/

/-- A condition with both forms of what may become of a call. -/
def notEither : Expr :=
  .binary (.unary .not (.call (verbatimCall "b OR c"))) .and (.call (verbatimCall "d"))

def eitherOr : Expr := .binary (.name [⟨"b", none⟩]) .or (.name [⟨"c", none⟩])

/-- The condition with what its calls become. -/
def notEitherOr : Expr := .binary (.unary .not (.nested eitherOr)) .and (.name [⟨"d", none⟩])

def eitherOrTokens : List Sql.Token :=
  [.word ⟨"b", none⟩ none, .word ⟨"OR", none⟩ (some .OR), .word ⟨"c", none⟩ none]

def notEitherTokens : List Sql.Token :=
  let call text := [.word ⟨"verbatim", none⟩ none, .mark .leftParen, .string .single text, .mark .rightParen]
  Sql.allWhereTokens "t" ++ .word ⟨"NOT", none⟩ (some .NOT) :: call "b OR c" ++
    .word ⟨"AND", none⟩ (some .AND) :: call "d"

def notEitherOrTokens : List Sql.Token :=
  Sql.allWhereTokens "t" ++ .word ⟨"NOT", none⟩ (some .NOT) :: .mark .leftParen :: eitherOrTokens ++
    [.mark .rightParen, .word ⟨"AND", none⟩ (some .AND), .word ⟨"d", none⟩ none]

theorem parseExpr_eitherOr : ∀ limit ∈ [25, 50],
    ({ recursionLimit := limit } : ParserSettings).parseExpr "b OR c" = .ok eitherOr := by
  intro limit mem
  rcases List.mem_pair.mp mem with rfl | rfl <;>
    exact bind_ok_iff.mpr ⟨eitherOrTokens, by decide +kernel, rfl⟩

theorem parseExpr_d : ∀ limit ∈ [25, 50],
    ({ recursionLimit := limit } : ParserSettings).parseExpr "d" = .ok (.name [⟨"d", none⟩]) := by
  intro limit mem
  rcases List.mem_pair.mp mem with rfl | rfl <;>
    exact bind_ok_iff.mpr ⟨[.word ⟨"d", none⟩ none], by decide +kernel, rfl⟩

theorem expandsPlaceable_notEither :
    ∀ c ∈ [verbatimCall "b OR c", verbatimCall "d"], (verbatim {}).ExpandsPlaceable 25 c := by
  intro c mem
  rcases List.mem_pair.mp mem with rfl | rfl
  · refine expandsPlaceable_verbatim (parseExpr_eitherOr 50 (by simp)) (parseExpr_eitherOr 25 (by simp)) ?_
    exact ⟨by decide +kernel, nofun, nofun, nofun⟩
  · refine expandsPlaceable_verbatim (parseExpr_d 50 (by simp)) (parseExpr_d 25 (by simp)) ?_
    exact ⟨by decide +kernel, fun _ => by decide +kernel, fun _ => by decide +kernel, nofun⟩

theorem expand_notEither :
    (verbatim {}).expand (.query (.allWhere "t" notEither)) = .ok (.query (.allWhere "t" notEitherOr), .empty) := by
  have either := replace_verbatim (parseExpr_eitherOr 50 (by simp))
  have d := replace_verbatim (parseExpr_d 50 (by simp))
  have filter : notEither.replace (verbatim {}).step = pure notEitherOr := by
    rw [notEither, Expr.replace, Expr.replace, either, d]
    rfl
  rw [expand_allWhere, filter]
  rfl

/-! ## Texts that are read as something else -/

/-- A query is prepared as a text that is not read as the statement that it was written from. -/
def Misplaces (x : Expansion) (query : String) : Prop :=
  ∃ s expanded properties prepared, x.parser.parseStatement query = .ok s ∧
    x.expand s = .ok (expanded, properties) ∧ x.prepare query = .ok prepared ∧
    x.parser.parseStatement prepared.sql ≠ .ok expanded

/-- A text that is not read, or is read as what is not written like it. -/
theorem misplaces_of_text (sql : String) (accepted : (x.prepare query).toOption.map (·.sql) = some sql)
    (other : (x.parser.parseStatement sql).toOption.map (·.text) ≠ some sql) : x.Misplaces query := by
  obtain ⟨prepared, made, rfl⟩ := Option.map_eq_some_iff.mp accepted
  have accepted := Outcome.ok_of_toOption made
  obtain ⟨s, read, made⟩ := bind_ok_iff.mp accepted
  obtain ⟨⟨expanded, properties⟩, replaced, made⟩ := bind_ok_iff.mp made
  refine ⟨s, expanded, properties, prepared, read, replaced, accepted, fun again => other ?_⟩
  obtain rfl := Except.ok.inj made
  rw [again]
  rfl

/-- A lone name before an equals sign names an argument where it may. -/
theorem misplaces_argument :
    (verbatim { grammar := .duckDb }).Misplaces "SELECT * FROM t WHERE f(verbatim('a') = 1)" := by
  let x := verbatim { grammar := .duckDb }
  let asking (a : Argument) : Statement := .query (.allWhere "t" (otherCall a))
  let call : Expr := .call (verbatimCall "a")
  let name : Expr := .name [⟨"a", none⟩]
  let one : Expr := .literal (.number "1" false)
  let tokens (column : List Sql.Token) : List Sql.Token := Sql.allWhereTokens "t" ++
    .word ⟨"f", none⟩ none :: .mark .leftParen :: column ++ [.mark .eq, .number "1" false, .mark .rightParen]
  have read : x.parser.parseStatement "SELECT * FROM t WHERE f(verbatim('a') = 1)" =
      .ok (asking (.positional (.binary call .eq one))) :=
    Sql.parseStatement_of_tokens (tokens [.word ⟨"verbatim", none⟩ none, .mark .leftParen, .string .single "a",
      .mark .rightParen]) [] (by decide +kernel) rfl
  -- The call was no name, so the first text compares; its expansion is one, so the second names.
  have again : x.parser.parseStatement "SELECT * FROM t WHERE f(a = 1)" =
      .ok (asking (.named ⟨"a", none⟩ .equals one)) :=
    Sql.parseStatement_of_tokens (tokens [.word ⟨"a", none⟩ none]) [] (by decide +kernel) rfl
  have column : x.parser.parseExpr "a" = .ok name :=
    bind_ok_iff.mpr ⟨[.word ⟨"a", none⟩ none], by decide +kernel, rfl⟩
  have argument : (Expr.binary call .eq one).replace x.step = pure (.binary name .eq one) := by
    have replaced : call.replace x.step = pure name := replace_verbatim column
    rw [Expr.replace, replaced]
    rfl
  have expanded : x.expand (asking (.positional (.binary call .eq one))) =
      .ok (asking (.positional (.binary name .eq one)), .empty) := by
    rw [expand_allWhere, replace_otherCall argument]
    rfl
  refine ⟨_, _, _, _, read, expanded, bind_ok_iff.mpr ⟨_, read, bind_ok_iff.mpr ⟨_, expanded, rfl⟩⟩, ?_⟩
  have text : (asking (.positional (.binary name .eq one))).text = "SELECT * FROM t WHERE f(a = 1)" := by
    decide +kernel
  simp only [text]
  rw [again]
  simp [asking, otherCall, Query.allWhere, Query.ofBody]

/-! ## Where expansions stand -/

end Expansion

end DetectionPlan
