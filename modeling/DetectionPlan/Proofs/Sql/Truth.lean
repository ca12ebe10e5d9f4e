/-
What conditions mean for a row. A condition is true, false or unknown, and
conjunctions and the like keep what is unknown unless the rest decides. Comparisons
of a column with texts, and all that is no combination of other conditions, are
whatever the row makes of them.
-/
import DetectionPlan.Sql.Filter
import DetectionPlan.Proofs.Outcome

namespace DetectionPlan

/-- What a condition may be for a row. -/
inductive Truth where
  | true | false | unknown
deriving DecidableEq, Repr, Inhabited

namespace Truth

def not : Truth → Truth
  | true => false
  | false => true
  | unknown => unknown

/-- A conjunction is false if one side is. -/
def and : Truth → Truth → Truth
  | false, _ => false
  | true, t => t
  | unknown, false => false
  | unknown, _ => unknown

def or (t u : Truth) : Truth := (t.not.and u.not).not

def xor (t u : Truth) : Truth := (t.and u.not).or (t.not.and u)

theorem and_eq_true_iff {t u : Truth} : t.and u = true ↔ t = true ∧ u = true := by
  cases t <;> cases u <;> decide

/-- Conjunctions with any number of conditions are true when all of them are. -/
theorem foldl_and_eq_true_iff {α : Type} {f : α → Truth} {l : List α} {t : Truth} :
    l.foldl (fun all a => all.and (f a)) t = true ↔ t = true ∧ ∀ a ∈ l, f a = true := by
  induction l generalizing t with
  | nil => simp
  | cons a l ih => simp [ih, and_eq_true_iff, and_assoc]

end Truth

/-- A row, by what its columns and conditions are. -/
structure Valuation where
  /-- Whether a column equals a text. -/
  equals : List Sql.Ident → String → Truth
  /-- What any other condition is. -/
  holds : Sql.Expr → Truth

namespace Sql

/-- The texts of some expressions, if all of them are string literals. -/
def literalTexts : List Expr → Option (List String)
  | [] => some []
  | .literal (.string .single v) :: more => (literalTexts more).map (v :: ·)
  | _ => none

end Sql

namespace Valuation

open Sql (Expr Ident literalTexts)

/-- Whether a column is one of some texts. -/
def isOneOf (row : Valuation) (column : List Ident) (values : List String) : Truth :=
  values.foldr (fun v t => (row.equals column v).or t) .false

/-- What an expression is for a row. -/
def truth (row : Valuation) : Expr → Truth
  | .nested e => row.truth e
  | .unary .not e => (row.truth e).not
  | .binary left .and right => (row.truth left).and (row.truth right)
  | .binary left .or right => (row.truth left).or (row.truth right)
  | .binary left .xor right => (row.truth left).xor (row.truth right)
  | .binary (.name column) .eq (.literal (.string .single v)) => row.equals column v
  | .binary (.name column) .notEq (.literal (.string .single v)) => (row.equals column v).not
  | .inList (.name column) negated items => match literalTexts items with
    | some values => if negated then (row.isOneOf column values).not else row.isOneOf column values
    | none => row.holds (.inList (.name column) negated items)
  | e => row.holds e

end Valuation

namespace Predicate

open Sql (Ident literalTexts)

/-- The name of the column of a predicate. -/
def columnName (p : Predicate) : List Ident :=
  match p.dataset with
  | some dataset => [⟨dataset, none⟩, ⟨p.column, none⟩]
  | none => [⟨p.column, none⟩]

/-- What a predicate is for a row. -/
def truth (p : Predicate) (row : Valuation) : Truth :=
  match p.operator, p.values with
  | .eq, [v] => row.equals p.columnName v
  | .neq, [v] => (row.equals p.columnName v).not
  | .isIn, values => row.isOneOf p.columnName values
  | _, _ => .unknown

/-- Whether a predicate can be added to a query: it is a comparison with one value or
with a list of some. -/
def IsAdmissible (p : Predicate) : Prop :=
  match p.operator with
  | .eq | .neq => p.values.length = 1
  | .isIn => p.values ≠ []
  | _ => False

theorem columnExpr_eq (p : Predicate) : p.columnExpr = .name p.columnName := by
  unfold columnExpr columnName
  cases p.dataset <;> rfl

theorem literalTexts_values (values : List String) : literalTexts (values.map valueExpr) = some values := by
  induction values with
  | nil => rfl
  | cons v values ih => simp [literalTexts, valueExpr, ih]

theorem exists_expr {p : Predicate} (h : p.IsAdmissible) : ∃ c, p.expr = .ok c := by
  unfold IsAdmissible at h
  unfold expr comparison
  split at h
  · obtain ⟨v, hv⟩ := List.length_eq_one_iff.mp h
    simp_all
  · obtain ⟨v, hv⟩ := List.length_eq_one_iff.mp h
    simp_all
  · simp_all
  · cases h

/-- The condition that a predicate stands for is what the predicate is. -/
theorem truth_expr {p : Predicate} {c : Sql.Expr} (h : p.expr = .ok c) (row : Valuation) :
    row.truth c = p.truth row := by
  unfold expr comparison at h
  rw [columnExpr_eq] at h
  unfold truth
  split at h
  next op =>
    split at h
    next v hv =>
      obtain rfl := Except.ok.inj h
      simp [op, hv, Valuation.truth, valueExpr]
    · cases h
  next op =>
    split at h
    next v hv =>
      obtain rfl := Except.ok.inj h
      simp [op, hv, Valuation.truth, valueExpr]
    · cases h
  next op =>
    split at h
    · cases h
    · obtain rfl := Except.ok.inj h
      simp [op, Valuation.truth, literalTexts_values]
  · cases h

end Predicate

namespace Sql

theorem truth_asConjunct (row : Valuation) (e : Expr) : row.truth e.asConjunct = row.truth e := by
  unfold Expr.asConjunct
  split <;> simp [Valuation.truth]

/-- A condition together with further ones is their conjunction. -/
theorem truth_conjoin (row : Valuation) (e : Expr) (conditions : List Expr) : row.truth (e.conjoin conditions) =
    conditions.foldl (fun all c => all.and (row.truth c)) (row.truth e) := by
  have fold (first : Expr) : row.truth (conditions.foldl (fun all c => .binary all .and (.nested c)) first) =
      conditions.foldl (fun all c => all.and (row.truth c)) (row.truth first) := by
    induction conditions generalizing first with
    | nil => rfl
    | cons c conditions ih =>
      rw [List.foldl_cons, List.foldl_cons, ih]
      simp [Valuation.truth]
  rw [Expr.conjoin, fold, truth_asConjunct]

end Sql

end DetectionPlan
