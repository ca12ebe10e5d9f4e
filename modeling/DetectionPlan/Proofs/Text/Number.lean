/-
Numbers written in decimal digits, and read from them.
-/
import DetectionPlan.Text.Number
import Mathlib.Algebra.Group.Nat.Defs

namespace DetectionPlan

theorem digitsValue_eq (cs : List Char) : digitsValue cs = Nat.ofDigitChars 10 cs 0 := by
  simp only [digitsValue, Nat.ofDigitChars_eq_foldl, Nat.mul_comm 10]

theorem isDigit_of_mem_toString {n : Nat} {c : Char} (h : c ∈ (toString n).toList) : c.isDigit := by
  rw [Nat.toString_eq_repr, Nat.toList_repr] at h
  exact Nat.isDigit_of_mem_toDigits (by decide) (by decide) h

theorem toString_toList_ne_nil (n : Nat) : (toString n).toList ≠ [] := by
  rw [Nat.toString_eq_repr, Nat.toList_repr]
  exact Nat.toDigits_ne_nil

theorem isDigits_toString (n : Nat) : isDigits (toString n).toList := by
  simp only [isDigits, Bool.and_eq_true, Bool.not_eq_true', List.isEmpty_eq_false_iff, List.all_eq_true]
  exact ⟨toString_toList_ne_nil n, fun c hc => isDigit_of_mem_toString hc⟩

/-- The digits of a number are read as the number. -/
theorem readDigits?_toString (n : Nat) : readDigits? (toString n).toList = some n := by
  rw [readDigits?, if_pos (isDigits_toString n), digitsValue_eq, Nat.toString_eq_repr, Nat.toList_repr,
    Nat.ofDigitChars_ten_toDigits]

/-- What is read as a number is one or more digits, and the number is theirs. -/
theorem readDigits?_eq_some_iff {cs : List Char} {n : Nat} : readDigits? cs = some n ↔
    cs ≠ [] ∧ (∀ c ∈ cs, c.isDigit) ∧ n = Nat.ofDigitChars 10 cs 0 := by
  have digits : isDigits cs ↔ cs ≠ [] ∧ ∀ c ∈ cs, c.isDigit := by
    simp [isDigits]
  unfold readDigits?
  by_cases h : isDigits cs
  · obtain ⟨filled, all⟩ := digits.mp h
    rw [if_pos h, digitsValue_eq, Option.some.injEq]
    exact ⟨fun same => ⟨filled, all, same.symm⟩, fun ⟨_, _, same⟩ => same.symm⟩
  · rw [if_neg h]
    exact ⟨nofun, fun ⟨filled, all, _⟩ => absurd (digits.mpr ⟨filled, all⟩) h⟩

theorem isDigit_iff {c : Char} : c.isDigit ↔ 48 ≤ c.toNat ∧ c.toNat ≤ 57 := by
  show (decide _ && decide _) = true ↔ _
  rw [Bool.and_eq_true, decide_eq_true_eq, decide_eq_true_eq]
  exact Iff.rfl

/-- A number is less than ten to the power of the number of its digits. -/
theorem ofDigitChars_lt {cs : List Char} (h : ∀ c ∈ cs, c.isDigit) :
    Nat.ofDigitChars 10 cs 0 < 10 ^ cs.length := by
  induction cs with
  | nil => exact Nat.one_pos
  | cons c cs ih =>
    have zero : '0'.toNat = 48 := rfl
    have digit : c.toNat - '0'.toNat ≤ 9 := by
      have := isDigit_iff.mp (h c List.mem_cons_self)
      omega
    have rest := ih fun d hd => h d (List.mem_cons_of_mem _ hd)
    have first := Nat.mul_le_mul_left (10 ^ cs.length) digit
    rw [Nat.ofDigitChars_cons, Nat.ofDigitChars_eq_ofDigitChars_zero, List.length_cons, Nat.pow_succ,
      Nat.mul_zero, Nat.zero_add]
    omega

/-! ## Leading zeros -/

theorem padZeros_toList (width n : Nat) : (padZeros width n).toList =
    List.replicate (width - (toString n).length) '0' ++ (toString n).toList := by
  have zeros (k : Nat) : ("".pushn '0' k).toList = List.replicate k '0' := by
    rw [String.pushn_eq_repeat_push]
    induction k with
    | zero => rfl
    | succ k ih =>
      show ((k.repeat (fun s => s.push '0') "").push '0').toList = _
      rw [String.toList_push, ih, List.replicate_succ']
  simp only [padZeros, String.toList_append, zeros]

/-- A number that has no more digits than the width is written with as many digits as that. -/
theorem padZeros_spec {width n : Nat} (positive : 0 < width) (h : n < 10 ^ width) :
    (padZeros width n).toList.length = width ∧ (∀ c ∈ (padZeros width n).toList, c.isDigit) ∧
      Nat.ofDigitChars 10 (padZeros width n).toList 0 = n := by
  have short : (toString n).length ≤ width := by
    rw [Nat.toString_eq_repr]
    exact (Nat.length_repr_le_iff positive).mpr h
  rw [padZeros_toList]
  refine ⟨?_, ?_, ?_⟩
  · rw [List.length_append, List.length_replicate, String.length_toList]
    omega
  · intro c hc
    rcases List.mem_append.mp hc with zero | digit
    · rw [List.eq_of_mem_replicate zero]
      rfl
    · exact isDigit_of_mem_toString digit
  · rw [Nat.ofDigitChars_append, Nat.ofDigitChars_replicate_zero, Nat.mul_zero, Nat.toString_eq_repr,
      Nat.toList_repr, Nat.ofDigitChars_ten_toDigits]

/-! ## Words -/

theorem not_pos_iff {n : UInt32} : ¬ 0 < n ↔ n = 0 := by
  rw [UInt32.not_lt, ← UInt32.toNat_inj]
  exact Nat.le_zero

theorem fitsInt64_iff {n : Int} : fitsInt64 n = true ↔ minInt64 ≤ n ∧ n ≤ maxInt64 := by
  simp [fitsInt64]

/-- A number beyond the signed words, but not beyond the unsigned ones, comes out negative. -/
theorem wrapInt64_eq_sub {n : Int} (above : maxInt64 < n) (below : n < 18446744073709551616) :
    wrapInt64 n = n - 18446744073709551616 := by
  simp only [maxInt64] at above
  rw [wrapInt64, ← Int.sub_bmod_right]
  exact Int.bmod_eq_of_le (by omega) (by omega)

theorem int64?_eq_some_iff {n m : Int} : int64? n = some m ↔ fitsInt64 n ∧ m = n := by
  unfold int64?
  split
  next fits => simp only [fits, true_and, Option.some.injEq, eq_comm]
  next fits => simp only [fits, Bool.false_eq_true, false_and, reduceCtorEq]

theorem int64?_of_fits {n : Int} (h : fitsInt64 n) : int64? n = some n :=
  int64?_eq_some_iff.mpr ⟨h, rfl⟩

theorem readInt64?_minus {s : String} {digits : List Char} (h : s.toList = '-' :: digits) :
    readInt64? s = (readDigits? digits).bind fun n => int64? (-(n : Int)) := by
  unfold readInt64?
  rw [h]
  rfl

theorem readInt64?_digit {s : String} {c : Char} {rest : List Char} (h : s.toList = c :: rest)
    (digit : c.isDigit) : readInt64? s = (readDigits? (c :: rest)).bind fun n => int64? n := by
  unfold readInt64?
  rw [h]
  split
  next sign =>
    obtain rfl := (List.cons.inj sign).1
    cases digit
  next sign =>
    obtain rfl := (List.cons.inj sign).1
    cases digit
  next => rfl

/-- A 64-bit integer is read from its text. -/
theorem readInt64?_toString {n : Int} (h : fitsInt64 n) : readInt64? (toString n) = some n := by
  cases n with
  | ofNat m =>
    have text : (toString (Int.ofNat m)).toList = (toString m).toList := rfl
    obtain ⟨c, rest, split⟩ := List.exists_cons_of_ne_nil (toString_toList_ne_nil m)
    have digit : c.isDigit := isDigit_of_mem_toString (split ▸ List.mem_cons_self)
    rw [readInt64?_digit (text.trans split) digit, ← split, readDigits?_toString, Option.bind_some]
    exact int64?_of_fits h
  | negSucc m =>
    have text : (toString (Int.negSucc m)).toList = '-' :: (toString (m + 1)).toList := by
      have : toString (Int.negSucc m) = "-" ++ toString (m + 1) := rfl
      rw [this, String.toList_append]
      rfl
    have negative : Int.negSucc m = -((m + 1 : Nat) : Int) := rfl
    rw [negative] at h
    rw [readInt64?_minus text, readDigits?_toString, Option.bind_some, int64?_of_fits h, negative]

end DetectionPlan
