/-
Rows of numbers. For such a row an expression of names, whole numbers, arithmetic and
rounding is a number, and a comparison of two of them a condition. Arithmetic is exact.
-/
import DetectionPlan.Proofs.Sql.Scanning
import DetectionPlan.Proofs.Sql.Truth
import Mathlib.Algebra.Order.Floor.Ring
import Mathlib.Data.Rat.Floor

namespace DetectionPlan

/-- A row by the numbers in its columns. -/
abbrev NumberRow := List Sql.Ident → Option ℚ

/-- The row of one column. -/
def NumberRow.ofColumn (column : String) (value : ℤ) : NumberRow := fun name =>
  if name = [⟨column, none⟩] then some value else none

namespace Sql

/-- The number that an operator makes of two. -/
def BinaryOp.number? (op : BinaryOp) (a b : ℚ) : Option ℚ :=
  match op with
  | plus => some (a + b)
  | minus => some (a - b)
  | times => some (a * b)
  | divide => if b = 0 then none else some (a / b)
  | _ => none

/-- Whether two numbers compare as an operator asks. -/
def BinaryOp.compares (op : BinaryOp) (a b : ℚ) : Truth :=
  let known (p : Bool) : Truth := if p then .true else .false
  match op with
  | eq => known (a = b)
  | notEq => known (a ≠ b)
  | lt => known (a < b)
  | ltEq => known (a ≤ b)
  | gt => known (b < a)
  | gtEq => known (b ≤ a)
  | _ => .unknown

namespace Expr

/-- The number that an expression is for a row. -/
def number? (row : NumberRow) : Expr → Option ℚ
  | name parts => row parts
  | literal (.number digits _) => (readDigits? digits.toList).map fun n => (n : ℚ)
  | nested e => e.number? row
  | unary .minus e => (e.number? row).map (-·)
  | unary .plus e => e.number? row
  | binary left op right =>
    (left.number? row).bind fun a => (right.number? row).bind fun b => op.number? a b
  | rounding upward e none => (e.number? row).map fun a => if upward then (⌈a⌉ : ℚ) else (⌊a⌋ : ℚ)
  | _ => none

/-- What a comparison of two numbers is for a row. -/
def comparison (row : NumberRow) : Expr → Truth
  | binary left op right => match left.number? row, right.number? row with
    | some a, some b => op.compares a b
    | _, _ => .unknown
  | _ => .unknown

end Expr

end Sql

/-- What conditions are for a row of numbers. -/
def NumberRow.valuation (row : NumberRow) : Valuation where
  equals _ _ := .unknown
  holds := Sql.Expr.comparison row

namespace Sql

/-! ## Integers and columns -/

/-- A column by its name. -/
def columnExpr (column : String) : Expr := .name [⟨column, none⟩]

/-- A number without a sign. -/
def natExpr (n : Nat) : Expr := .literal (.number (toString n) false)

/-- An integer, which has a sign if it is negative. -/
def intExpr (n : Int) : Expr := if n < 0 then .unary .minus (natExpr n.natAbs) else natExpr n.natAbs

@[simp]
theorem number?_column (column : String) (value : Int) :
    (columnExpr column).number? (.ofColumn column value) = some (value : ℚ) := by
  simp [columnExpr, Expr.number?, NumberRow.ofColumn]

@[simp]
theorem number?_nat (row : NumberRow) (n : Nat) : (natExpr n).number? row = some (n : ℚ) := by
  rw [natExpr, Expr.number?, readDigits?_toString]
  rfl

@[simp]
theorem number?_int (row : NumberRow) (n : Int) : (intExpr n).number? row = some (n : ℚ) := by
  unfold intExpr
  split
  next negative => simp [Expr.number?, Nat.cast_natAbs, abs_of_neg negative]
  next positive => simp [Nat.cast_natAbs, abs_of_nonneg (not_lt.mp positive)]

/-! ## Reading them -/

/-- Whether a word is read as the name of a column wherever an expression starts. -/
structure IsColumn (g : Grammar) (word : String) : Prop where
  plain : g.isPlainName word
  first : startsName g word

namespace Parser

variable {s : ParserSettings} {rest : List Token} {power d : Nat}

theorem nat_read (n : Nat) (stops : nextPower rest ≤ power) :
    (innerIn s (d + 1)).expr power (.number (toString n) false :: rest) = .ok (natExpr n, rest) := by
  rw [innerIn_expr_succ]
  exact expression_of_operand rfl stops

theorem int_read (n : Int) (stops : nextPower rest ≤ power) (low : power ≤ timesPower) :
    (innerIn s (d + 2)).expr power (Lexer.intTokens n ++ rest) = .ok (intExpr n, rest) := by
  unfold Lexer.intTokens intExpr
  split
  · rw [innerIn_expr_succ]
    refine expression_of_operand ?_ stops
    rw [List.cons_append, operand, bind_of_ok (take_cons _)]
    exact bind_of_ok (nat_read n.natAbs (Nat.le_trans stops low))
  · exact nat_read n.natAbs stops

end Parser

end Sql

end DetectionPlan
