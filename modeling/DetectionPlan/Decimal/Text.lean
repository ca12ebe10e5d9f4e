/-
How doubles are written and read. A double is written by its shortest decimal,
either positionally or with an exponent; it is read from a decimal with an
optional fraction and exponent, to the nearest double.
-/
import DetectionPlan.Decimal.Shortest
import DetectionPlan.Text.Number

namespace DetectionPlan

/-- The choices a text format for doubles makes. -/
structure DoubleFormat where
  /-- Whether a value whose leading digit stands for `10 ^ decade` is written
  without an exponent. -/
  positional : (decade : Int) → Bool
  /-- Whether a whole number written positionally ends in `.0`. -/
  markWhole : Bool

namespace DoubleFormat

/-- Messages and keys show doubles in full and without a mark on whole ones. -/
def plain : DoubleFormat := ⟨fun _ => true, false⟩

/-- Documents show very large and very small doubles with an exponent and mark
whole ones, so that they stay apart from integers. -/
def document : DoubleFormat := ⟨fun decade => -6 < decade && decade < 16, true⟩

/-- An exponent has a sign and at least two digits. -/
def exponentText (e : Int) : String :=
  (if e < 0 then "e-" else "e+") ++ padZeros 2 e.natAbs

/-- The text of a magnitude. -/
def magnitudeText (f : DoubleFormat) (d : Decimal) : String :=
  let digits := toString d.digits
  let count : Int := digits.length
  let decade := d.exponent + count - 1
  if f.positional decade then
    if 0 ≤ d.exponent then
      digits ++ "".pushn '0' d.exponent.toNat ++ (if f.markWhole then ".0" else "")
    else if 0 ≤ decade then
      let whole := (decade + 1).toNat
      (digits.take whole).toString ++ "." ++ (digits.drop whole).toString
    else "0." ++ "".pushn '0' (-decade - 1).toNat ++ digits
  else
    let tail := (digits.drop 1).toString
    (digits.take 1).toString ++ (if tail.isEmpty then "" else "." ++ tail) ++ exponentText decade

/-- The text of a double; the ones that are no number have names. -/
def text (f : DoubleFormat) (x : Float) : String :=
  if x.isNaN then "NaN"
  else
    let sign := if isSigned x then "-" else ""
    if x.isInf then sign ++ "inf" else sign ++ f.magnitudeText (shortestDecimal x)

end DoubleFormat

/-- `digits * 10 ^ exponent` as the nearest double. Beyond the range of doubles
the answer does not depend on the exact exponent, which is then cut. -/
def nearestDouble (digits : Nat) (exponent : Int) : Float :=
  if digits == 0 then 0.0
  else
    let decade := exponent + (toString digits).length
    if 310 < decade then 1.0 / 0.0
    else if decade < -350 then 0.0
    else Float.ofScientific digits (exponent < 0) exponent.natAbs

/-- The parts of a decimal text: whole digits, fraction digits and exponent. -/
structure DecimalParts where
  whole : List Char
  fraction : List Char
  exponent : Int

namespace DecimalParts

/-- Optional sign and digits after the mark of an exponent. -/
def readExponent? : List Char → Option Int
  | '-' :: cs => (readDigits? cs).map fun n => -(n : Int)
  | '+' :: cs => (readDigits? cs).map fun n => (n : Int)
  | cs => (readDigits? cs).map fun n => (n : Int)

/-- Digits, an optional point with more digits, an optional exponent. At least
one digit stands before or after the point. -/
def read? (cs : List Char) : Option DecimalParts :=
  let whole := cs.takeWhile Char.isDigit
  let afterWhole := cs.dropWhile Char.isDigit
  let (fraction, rest) := match afterWhole with
    | '.' :: more => (more.takeWhile Char.isDigit, more.dropWhile Char.isDigit)
    | _ => ([], afterWhole)
  if whole.isEmpty && fraction.isEmpty then none
  else match rest with
    | [] => some ⟨whole, fraction, 0⟩
    | c :: more =>
      if c == 'e' || c == 'E' then
        (readExponent? more).map fun e => ⟨whole, fraction, e⟩
      else none

/-- The nearest double. -/
def value (p : DecimalParts) : Float :=
  nearestDouble (digitsValue (p.whole ++ p.fraction)) (p.exponent - p.fraction.length)

end DecimalParts

/-- A double read from text: a decimal, an infinity or not-a-number, after an
optional sign. The names are read in any case. -/
def readDouble? (s : String) : Option Float :=
  let (negative, cs) := match s.toList with
    | '-' :: rest => (true, rest)
    | '+' :: rest => (false, rest)
    | cs => (false, cs)
  let name := String.ofList (cs.map Char.toLower)
  let magnitude : Option Float :=
    if name == "inf" || name == "infinity" then some (1.0 / 0.0)
    else if name == "nan" then some (0.0 / 0.0)
    else (DecimalParts.read? cs).map DecimalParts.value
  magnitude.map fun x => if negative then -x else x

/-- The integer that a double stands for, when it has no fraction. -/
def wholeValue? (x : Float) : Option Int :=
  if x.isNaN || x.isInf then none
  else
    let m := Magnitude.ofBits x.toBits
    let (n, d) := m.ratio
    if n % d == 0 then
      some (if isSigned x then -((n / d : Nat) : Int) else ((n / d : Nat) : Int))
    else none

/-- The double nearest to an integer. -/
def doubleOfInt (n : Int) : Float :=
  if n < 0 then -(Float.ofNat n.natAbs) else Float.ofNat n.natAbs

end DetectionPlan
