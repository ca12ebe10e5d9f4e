/-
How the tokens of an expression compare with those of another that it turns into. Where a call
is swapped an operand stands for it, which begins with none of the words that would be read as
something else (`Opens`); all that is looked at before the expression is read comes out as before.
-/
import DetectionPlan.Proofs.Sql.Swap.Basic

namespace DetectionPlan.Sql

/-- Words that are looked for where an operand may begin. -/
def Keyword.isClaimed : Keyword → Bool
  | SELECT | WITH | ALL | DISTINCT | WHEN | EXISTS => true
  | _ => false

/-- Whether some list of expressions may end in a comma. -/
def ParserSettings.mayTrail (s : ParserSettings) : Bool :=
  s.trailingCommas || s.grammar.allowsTrailingCommaInProjection

namespace Parser

variable {s : ParserSettings} {P : Token → Prop} {R : Call → Option Expr → Prop} {ts ts' : List Token} {t : Token}

/-! ## First tokens -/

/-- First tokens of an operand that are read as nothing else. -/
def Opens (s : ParserSettings) : Option Token → Prop
  | some (.word _ k) => ∀ l, k = some l → l.isClaimed = false ∧ (s.mayTrail → l.endsResult = false)
  | some (.number ..) | some (.string ..) | some (.mark .leftParen) => True
  | _ => False

theorem Opens.leftParen {first : Option Token} {m : Mark} (h : Opens s first) (is : first = some (.mark m)) :
    m = .leftParen := by
  subst is
  cases m <;> first | rfl | exact h.elim

/-- Tokens that start like others or with an operand. -/
structure Opening (s : ParserSettings) (P : Token → Prop) (ts ts' : List Token) : Prop where
  known : Known P ts ts'
  first : ts'.head? = ts.head? ∨ Opens s ts'.head?

/-- No name of an argument comes first. -/
def Unnamed (s : ParserSettings) (ts : List Token) : Prop := argumentPair s.grammar ts[0]? ts[1]? = none

/-- No star comes first, and no star of a table. -/
structure Plain (ts : List Token) : Prop where
  star : ts.head? ≠ some (.mark .star)
  parts : ∀ name, starName? ts = some name → ∃ parts rest, nameTail true (ts.drop 1) = .ok ((parts, false), rest)

/-- Tokens that start like others or with an operand, and do not name an argument when those do not. -/
structure Items (s : ParserSettings) (P : Token → Prop) (ts ts' : List Token) : Prop extends Opening s P ts ts' where
  unnamed : Unnamed s ts → Unnamed s ts'

/-- Tokens that start like others or with an operand and are no mark but one that an expression
starts with. -/
structure Leads (s : ParserSettings) (P : Token → Prop) (ts ts' : List Token) : Prop extends Opening s P ts ts' where
  leads : ∀ m, ts'.head? = some (.mark m) → m = .leftParen ∨ m = .minus ∨ m = .plus

/-- Tokens of an expression in the place of those of another. -/
structure Starts (s : ParserSettings) (P : Token → Prop) (ts ts' : List Token) : Prop
    extends Items s P ts ts', Leads s P ts ts' where
  plain : Plain ts → Plain ts'

/-- Tokens that may stand for others behind the first token of an expression. -/
structure Second (s : ParserSettings) (P : Token → Prop) (ts ts' : List Token) : Prop where
  known : Known P ts ts'
  unnamed : ∀ t, Unnamed s (t :: ts) → Unnamed s (t :: ts')
  plain : ∀ t, Plain (t :: ts) → Plain (t :: ts')

/-- Tokens that start alike, and with no point. -/
structure Unpointed (P : Token → Prop) (ts ts' : List Token) : Prop extends Alike P ts ts' where
  point : ts.head? ≠ some (.mark .period)

theorem Plain.starOrExpr (h : Plain ts) (inner : Inner) : starOrExpr inner ts = inner.expr 0 ts := by
  cases name : starName? ts with
  | none => exact starOrExpr_plain inner h.star name
  | some i =>
    obtain ⟨parts, rest, tail⟩ := h.parts i name
    rw [starOrExpr_name inner name, tail]

theorem Plain.of_point (star : t ≠ .mark .star) (point : ts.head? ≠ some (.mark .period)) : Plain (t :: ts) where
  star e := star (Option.some.inj e)
  parts name h := by
    obtain ⟨t, rest, e, -⟩ := starName?_of_some h
    obtain ⟨-, rfl⟩ := List.cons.inj e
    exact absurd rfl point

theorem Unnamed.of_mark (h : ∀ m, ts.head? = some (.mark m) → argumentMark? s.grammar m = none) :
    Unnamed s (t :: ts) := by
  rw [Unnamed, List.getElem?_cons_zero, List.getElem?_cons_succ, ← List.head?_eq_getElem?]
  match ts.head?, h with
  | none, _ | some (.word ..), _ | some (.number ..), _ | some (.string ..), _ | some (.other _), _ => rfl
  | some (.mark m), h => simp [argumentPair, h m rfl]

theorem Unnamed.of_ident (h : argumentIdent? t = none) : Unnamed s (t :: ts) := by
  rw [Unnamed, List.getElem?_cons_zero]
  unfold argumentPair
  split
  next e _ =>
    obtain rfl := Option.some.inj e
    rw [h]
    rfl
  · rfl

theorem unnamed_of_head (h : ts'.head? = ts.head?) (un : Unnamed s (t :: ts)) : Unnamed s (t :: ts') := by
  rw [Unnamed, List.getElem?_cons_zero, List.getElem?_cons_succ, ← List.head?_eq_getElem?] at un ⊢
  rwa [h]

namespace Opening

theorem alike (h : Alike P ts ts') : Opening s P ts ts' := ⟨h.known, .inl h.first⟩

theorem cons (ht : P t) (h : Known P ts ts') : Opening s P (t :: ts) (t :: ts') :=
  ⟨List.forall_mem_cons.mpr ⟨ht, h⟩, .inl rfl⟩

theorem skips {k : Keyword} (claimed : k.isClaimed) : Skips P k (Opening s P) where
  word ht h := .cons ht h
  other {ts ts'} h first := by
    rcases h.first with same | opens
    · rwa [same]
    · intro word
      obtain ⟨name, rest, rfl⟩ := exists_word word
      rw [(opens k rfl).1] at claimed
      cases claimed
  known := known

theorem skipsMark : SkipsMark P .rightParen (Opening s P) where
  mark ht h := .cons ht h
  other {ts ts'} h first := by
    rcases h.first with same | opens
    · rwa [same]
    · intro mark
      rw [mark] at opens
      exact opens

/-- A list that goes on with another expression goes on with what stands for it. -/
theorem goes (h : Opening s P ts ts') (trails : s.mayTrail) (on : endsListAt ts.head? = false) :
    endsListAt ts'.head? = false := by
  rcases h.first with same | opens
  · rwa [same]
  · match ts'.head?, opens with
    | some (.word _ none), _ | some (.number ..), _ | some (.string ..), _ | some (.mark .leftParen), _ => rfl
    | some (.word _ (some k)), opens => exact (opens k rfl).2 trails

end Opening

namespace Leads

theorem skips {k : Keyword} (claimed : k.isClaimed) : Skips P k (Leads s P) where
  word ht h := ⟨.cons ht h, nofun⟩
  other h first := (Opening.skips claimed).other h.toOpening first
  known h := h.known

theorem toSecond (h : Leads s P ts ts') : Second s P ts ts' where
  known := h.known
  unnamed t _ := .of_mark fun m hm => by rcases h.leads m hm with rfl | rfl | rfl <;> rfl
  plain t plain := by
    refine .of_point (fun e => plain.star (congrArg some e)) fun e => ?_
    rcases h.leads _ e with h | h | h <;> cases h

end Leads

namespace Unpointed

theorem toSecond (h : Unpointed P ts ts') : Second s P ts ts' where
  known := h.known
  unnamed _ := unnamed_of_head h.first
  plain _ plain := .of_point (fun e => plain.star (congrArg some e)) (h.first ▸ h.point)

theorem skipsMark : SkipsMark P .leftParen (Unpointed P) where
  mark ht h := ⟨.mark ht h, nofun⟩
  other h first := h.first ▸ first

theorem of_stops (h : Stops P ts ts') : Unpointed P ts ts' := ⟨h.toAlike, fun e => by cases h.ends _ e⟩

end Unpointed

namespace Starts

theorem word {name : Ident} {k : Option Keyword} (ht : P (.word name k)) (h : Second s P ts ts') :
    Starts s P (.word name k :: ts) (.word name k :: ts') where
  toOpening := .cons ht h.known
  unnamed := h.unnamed _
  leads := nofun
  plain := h.plain _

theorem string {kind : StringKind} {text : String} (ht : P (.string kind text)) (h : Second s P ts ts') :
    Starts s P (.string kind text :: ts) (.string kind text :: ts') where
  toOpening := .cons ht h.known
  unnamed := h.unnamed _
  leads := nofun
  plain := h.plain _

/-- Behind a token that is no name anything may stand. -/
theorem other (ht : P t) (name : argumentIdent? t = none) (part : partOf? t = none) (star : t ≠ .mark .star)
    (leads : ∀ m, t = .mark m → m = .leftParen ∨ m = .minus ∨ m = .plus) (h : Known P ts ts') :
    Starts s P (t :: ts) (t :: ts') where
  toOpening := .cons ht h
  unnamed _ := .of_ident name
  leads m e := leads m (Option.some.inj e)
  plain _ := by
    refine ⟨fun e => star (Option.some.inj e), fun i h => ?_⟩
    obtain ⟨t, rest, e, some⟩ := starName?_of_some h
    obtain ⟨rfl, -⟩ := List.cons.inj e
    rw [part] at some
    cases some

end Starts

end Parser

end DetectionPlan.Sql
