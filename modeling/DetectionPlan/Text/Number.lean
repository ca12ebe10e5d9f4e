/-
Whole numbers read from decimal digits, with or without a sign and within the
range of the word that holds them. Nothing else is skipped: no blanks, no
separators.
-/

namespace DetectionPlan

/-- The number written by decimal digits, most significant first. -/
def digitsValue (cs : List Char) : Nat :=
  cs.foldl (fun n c => n * 10 + (c.toNat - '0'.toNat)) 0

/-- One or more decimal digits and nothing else. -/
def isDigits (cs : List Char) : Bool := !cs.isEmpty && cs.all Char.isDigit

/-- A number written by one or more decimal digits. -/
def readDigits? (cs : List Char) : Option Nat :=
  if isDigits cs then some (digitsValue cs) else none

/-- The largest number that an unsigned 32-bit word holds. -/
def maxWord32 : Nat := 4294967295

/-- The largest number that an unsigned 64-bit word holds. -/
def maxWord64 : Nat := 18446744073709551615

/-- A number that an unsigned 64-bit word holds, after an optional plus sign. -/
def readSize? (s : String) : Option Nat :=
  let digits := match s.toList with
    | '+' :: rest => rest
    | cs => cs
  (readDigits? digits).filter (· ≤ maxWord64)

/-- The smallest signed 64-bit integer. -/
def minInt64 : Int := -9223372036854775808

/-- The largest signed 64-bit integer. -/
def maxInt64 : Int := 9223372036854775807

/-- Whether a signed 64-bit word holds the integer. -/
def fitsInt64 (n : Int) : Bool := minInt64 ≤ n && n ≤ maxInt64

/-- The integer itself when a signed 64-bit word holds it. -/
def int64? (n : Int) : Option Int := if fitsInt64 n then some n else none

/-- The integer nearest to `n` that a signed 64-bit word holds. -/
def clampInt64 (n : Int) : Int := max minInt64 (min maxInt64 n)

/-- The signed 64-bit word with the low 64 bits of `n`. -/
def wrapInt64 (n : Int) : Int := n.bmod 18446744073709551616

theorem wrapInt64_eq {n : Int} (h : fitsInt64 n = true) : wrapInt64 n = n := by
  have ⟨low, high⟩ : minInt64 ≤ n ∧ n ≤ maxInt64 := by simpa [fitsInt64] using h
  simp only [minInt64, maxInt64] at low high
  exact Int.bmod_eq_of_le (by omega) (by omega)

/-- A signed 64-bit integer after an optional sign. -/
def readInt64? (s : String) : Option Int :=
  match s.toList with
  | '-' :: rest => (readDigits? rest).bind fun n => int64? (-(n : Int))
  | '+' :: rest => (readDigits? rest).bind fun n => int64? n
  | cs => (readDigits? cs).bind fun n => int64? n

/-- Decimal digits of `n`, with zeros in front up to `width` of them. -/
def padZeros (width n : Nat) : String :=
  let digits := toString n
  "".pushn '0' (width - digits.length) ++ digits

end DetectionPlan
