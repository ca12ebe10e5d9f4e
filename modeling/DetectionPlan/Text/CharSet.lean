/-
Sets of characters given by the places where membership changes: the numbers
in `bounds` rise, the set starts empty, and each bound flips membership from
there on. A range is two bounds, its first character and the one after its
last.
-/

namespace DetectionPlan

/-- A set of characters as the rising list of code points at which membership
flips. -/
structure CharSet where
  ofBounds ::
  bounds : Array Nat

/-- A character belongs when an odd number of bounds is at or below it. -/
def CharSet.contains (s : CharSet) (c : Char) : Bool :=
  s.bounds.countP (· ≤ c.toNat) % 2 == 1

end DetectionPlan
