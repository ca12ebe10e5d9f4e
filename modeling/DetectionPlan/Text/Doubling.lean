/-
Writing a character twice wherever it occurs, and taking such pairs back. What
was doubled comes back as it was: `halveChar_doubleChar`.
-/

namespace DetectionPlan

/-- A text with every occurrence of a character written twice. -/
def doubleChar (q : Char) (cs : List Char) : List Char :=
  cs.flatMap fun c => if c == q then [q, q] else [c]

/-- A text with every pair of a character, taken from the left, written once. -/
def halveChar (q : Char) : List Char → List Char
  | [] => []
  | [c] => [c]
  | c :: d :: rest =>
    if c == q && d == q then q :: halveChar q rest else c :: halveChar q (d :: rest)

theorem halveChar_cons_ne {q c : Char} (h : c ≠ q) (cs : List Char) :
    halveChar q (c :: cs) = c :: halveChar q cs := by
  have : (c == q) = false := by simpa using h
  cases cs with
  | nil => rfl
  | cons d rest => simp [halveChar, this]

theorem doubleChar_cons_ne {q c : Char} (h : c ≠ q) (cs : List Char) :
    doubleChar q (c :: cs) = c :: doubleChar q cs := by
  simp [doubleChar, h]

theorem doubleChar_cons_self (q : Char) (cs : List Char) :
    doubleChar q (q :: cs) = q :: q :: doubleChar q cs := by
  simp [doubleChar]

theorem doubleChar_eq_self {q : Char} {cs : List Char} (h : q ∉ cs) : doubleChar q cs = cs := by
  induction cs with
  | nil => rfl
  | cons c rest ih =>
    obtain ⟨other, later⟩ := not_or.mp fun found => h (List.mem_cons.mpr found)
    rw [doubleChar_cons_ne (Ne.symm other), ih later]

theorem halveChar_doubleChar (q : Char) (cs : List Char) :
    halveChar q (doubleChar q cs) = cs := by
  induction cs with
  | nil => rfl
  | cons c rest ih =>
    by_cases h : c = q
    · rw [h, doubleChar_cons_self]
      simp [halveChar, ih]
    · rw [doubleChar_cons_ne h, halveChar_cons_ne h, ih]

end DetectionPlan
