/-
Texts in the order of their code points. The first place where two texts differ decides, so texts of
one length decide for whatever follows them (`append_lt_append`), and numbers that are written with
equally many digits come in the order of the numbers (`padZeros_lt`).
-/
import DetectionPlan.Proofs.Text.Number
import Mathlib.Data.String.Basic

namespace DetectionPlan

variable {a b u v : List Char}

/-- What follows two texts of one length leaves them in their order. -/
theorem append_lt_append (length : a.length = b.length) (h : a < b) : a ++ u < b ++ v := by
  induction a generalizing b with
  | nil =>
    rw [List.length_nil] at length
    rw [List.eq_nil_of_length_eq_zero length.symm] at h
    exact absurd h (List.not_lt_nil [])
  | cons c a ih =>
    cases b with
    | nil => cases length
    | cons d b =>
      rw [List.cons_append, List.cons_append, List.cons_lt_cons_iff]
      rcases List.cons_lt_cons_iff.mp h with first | ⟨same, rest⟩
      · exact .inl first
      · exact .inr ⟨same, ih (Nat.succ.inj length) rest⟩

theorem append_lt_append_left_iff : u ++ a < u ++ b ↔ a < b := by
  induction u with
  | nil => exact Iff.rfl
  | cons c u ih => simp [ih]

/-- Whether a text comes after another whatever follows the two: it has the greater character where
they first differ. -/
def comesAfter : List Char → List Char → Bool
  | c :: cs, d :: ds => if c = d then comesAfter cs ds else d < c
  | _, _ => false

theorem not_lt_of_comesAfter (h : comesAfter a b) : ¬ a ++ u < b ++ v := by
  induction a generalizing b with
  | nil => cases h
  | cons c a ih =>
    cases b with
    | nil => cases h
    | cons d b =>
      rw [List.cons_append, List.cons_append, List.cons_lt_cons_iff]
      unfold comesAfter at h
      split at h
      next same =>
        rintro (first | ⟨-, rest⟩)
        · exact absurd (same ▸ first) (lt_irrefl d)
        · exact ih h rest
      next other =>
        have greater : d < c := of_decide_eq_true h
        rintro (first | ⟨same, -⟩)
        · exact absurd (first.trans greater) (lt_irrefl c)
        · exact other same

/-! ## Numbers -/

/-- Of two texts of equally many digits the one that stands for the lesser number comes first. -/
theorem lt_of_ofDigitChars_lt (ha : ∀ c ∈ a, c.isDigit) (hb : ∀ c ∈ b, c.isDigit)
    (length : a.length = b.length) (h : Nat.ofDigitChars 10 a 0 < Nat.ofDigitChars 10 b 0) : a < b := by
  induction a generalizing b with
  | nil =>
    rw [List.length_nil] at length
    rw [List.eq_nil_of_length_eq_zero length.symm] at h
    exact absurd h (lt_irrefl _)
  | cons c a ih =>
    cases b with
    | nil => cases length
    | cons d b =>
      obtain ⟨hc, restA⟩ := List.forall_mem_cons.mp ha
      obtain ⟨hd, restB⟩ := List.forall_mem_cons.mp hb
      have lengths : a.length = b.length := Nat.succ.inj length
      have below := ofDigitChars_lt restA
      have low := (isDigit_iff.mp hc).1
      have low' := (isDigit_iff.mp hd).1
      have zero : '0'.toNat = 48 := rfl
      rw [Nat.ofDigitChars_cons, Nat.ofDigitChars_eq_ofDigitChars_zero, Nat.ofDigitChars_cons,
        Nat.ofDigitChars_eq_ofDigitChars_zero (l := b), ← lengths, Nat.mul_zero, Nat.zero_add, Nat.zero_add] at h
      have upto : c.toNat ≤ d.toNat := by
        by_contra beyond
        have step := Nat.mul_le_mul_left (10 ^ a.length)
          (show d.toNat - '0'.toNat + 1 ≤ c.toNat - '0'.toNat by omega)
        rw [Nat.mul_add, Nat.mul_one] at step
        have below' := ofDigitChars_lt restB
        rw [← lengths] at below'
        omega
      rw [List.cons_lt_cons_iff]
      rcases Nat.lt_or_eq_of_le upto with lt | eq
      · exact .inl lt
      · have same : c = d := Char.toNat_inj.mp eq
        rw [same] at h
        exact .inr ⟨same, ih restA restB lengths (by omega)⟩

/-- Numbers written with one width come in their order. -/
theorem padZeros_lt {width m n : Nat} (positive : 0 < width) (lt : m < n) (fits : n < 10 ^ width) :
    (padZeros width m).toList.length = (padZeros width n).toList.length ∧
      (padZeros width m).toList < (padZeros width n).toList := by
  obtain ⟨length, digits, value⟩ := padZeros_spec positive (lt.trans fits)
  obtain ⟨length', digits', value'⟩ := padZeros_spec positive fits
  refine ⟨length.trans length'.symm, lt_of_ofDigitChars_lt digits digits' (length.trans length'.symm) ?_⟩
  rwa [value, value']

end DetectionPlan
