/-
The decimal with the fewest digits that reads back as a given double, and of
those the one nearest to it.

A finite double is `m * 2 ^ q`. Every real number strictly between the halfway
points to its two neighbours reads back as it, and so do the halfway points
themselves when `m` is even. For 1, 2, ... 17 digits the two points of that
decimal grid around the value are tried; the first grid with a hit wins.
-/

namespace DetectionPlan

/-- The number `digits * 10 ^ exponent`. -/
structure Decimal where
  digits : Nat
  exponent : Int
deriving DecidableEq, Repr, Inhabited

/-- The magnitude `significand * 2 ^ exponent` of a finite double. `unitBelow`
tells that the double below is only half as far away as the one above. -/
structure Magnitude where
  significand : Nat
  exponent : Int
  unitBelow : Bool
deriving Repr

/-- The magnitude in the bits of a finite double. -/
def Magnitude.ofBits (bits : UInt64) : Magnitude :=
  let field := ((bits >>> 52) &&& 0x7FF).toNat
  let fraction := (bits &&& 0xFFFFFFFFFFFFF).toNat
  if field == 0 then ⟨fraction, -1074, false⟩
  else ⟨4503599627370496 + fraction, (field : Int) - 1075, fraction == 0 && 1 < field⟩

/-- `10 ^ k` as numerator and denominator. -/
def powerOfTen (k : Int) : Nat × Nat := (Nat.pow 10 k.toNat, Nat.pow 10 (-k).toNat)

namespace Magnitude

/-- The value as numerator and denominator. -/
def ratio (x : Magnitude) : Nat × Nat :=
  (x.significand * Nat.pow 2 x.exponent.toNat, Nat.pow 2 (-x.exponent).toNat)

/-- Whether `10 ^ k` is at most the value. -/
def reachesPower (x : Magnitude) (k : Int) : Bool :=
  let (n, d) := x.ratio
  let (tn, td) := powerOfTen k
  tn * d ≤ n * td

/-- The largest `k` with `10 ^ k` at most the value, for a value that is not
zero. The guess from the binary exponent is off by at most one. -/
def decade (x : Magnitude) : Int :=
  let guess := ((Nat.log2 x.significand : Int) + x.exponent) * 30103 / 100000
  if x.reachesPower (guess + 1) then guess + 1
  else if x.reachesPower guess then guess
  else guess - 1

/-- The best point of the grid of multiples of `10 ^ k` that reads back as the
value, if any does. A tie goes to the even point. -/
def onGrid (x : Magnitude) (k : Int) : Option Nat :=
  let (tn, td) := powerOfTen k
  let unit := Nat.pow 2 x.exponent.toNat * td
  let step := 4 * (Nat.pow 2 (-x.exponent).toNat * tn)
  let value := 4 * x.significand * unit
  let low := value - (if x.unitBelow then unit else 2 * unit)
  let high := value + 2 * unit
  let even := x.significand % 2 == 0
  let readsBack (c : Nat) : Bool :=
    if even then low ≤ c * step && c * step ≤ high
    else low < c * step && c * step < high
  let below := value / step
  let above := below + 1
  let nearer : Nat :=
    let down := value - below * step
    let up := above * step - value
    if down < up then below else if up < down then above
    else if below % 2 == 0 then below else above
  let other := if nearer == below then above else below
  if readsBack nearer then some nearer else if readsBack other then some other else none

/-- Try the grids of `digits`, `digits + 1`, ... digits. -/
def shortestFrom (x : Magnitude) (decade : Int) (digits : Nat) : Nat → Decimal
  | 0 => ⟨0, 0⟩
  | tries + 1 =>
    let k := decade - digits + 1
    match x.onGrid k with
    | some d => ⟨d, k⟩
    | none => shortestFrom x decade (digits + 1) tries

/-- The shortest decimal of a value; seventeen digits always suffice. -/
def shortest (x : Magnitude) : Decimal :=
  if x.significand == 0 then ⟨0, 0⟩ else x.shortestFrom x.decade 1 17

end Magnitude

/-- A decimal without zeros at the end of its digits. -/
def Decimal.stripZeros (d : Decimal) : Nat → Decimal
  | 0 => d
  | fuel + 1 =>
    if d.digits != 0 && d.digits % 10 == 0 then
      Decimal.stripZeros ⟨d.digits / 10, d.exponent + 1⟩ fuel
    else d

/-- The shortest decimal of a finite double's magnitude. -/
def shortestDecimal (x : Float) : Decimal :=
  (Magnitude.ofBits x.toBits).shortest.stripZeros 18

/-- The sign bit of a double. -/
def isSigned (x : Float) : Bool := x.toBits >>> 63 != 0

end DetectionPlan
