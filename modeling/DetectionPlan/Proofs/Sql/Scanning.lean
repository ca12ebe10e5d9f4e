/-
The tokens of texts that are put together from names, whole numbers and marks. Each
lemma takes one token off the front of a text, in both directions.
-/
import DetectionPlan.Proofs.Sql.Spelling
import DetectionPlan.Proofs.Text.Number

namespace DetectionPlan.Sql.Lexer

variable {s : ParserSettings} {c : Char} {v w : List Char} {ts : List Token}

theorem tokensOf_of_next {t : Token} (h : next s c v = .ok (some t, w)) :
    tokensOf s (c :: v) = .ok (t :: ts) ↔ tokensOf s w = .ok ts := by
  rw [tokensOf_cons h, Outcome.map_ok_iff]
  simp

theorem tokensOf_blank : tokensOf s (' ' :: w) = .ok ts ↔ tokensOf s w = .ok ts := by
  rw [tokensOf_cons (next_blank s w), Outcome.map_ok_iff]
  simp

/-! ## Names and numbers -/

theorem tokensOf_name {name : String} (h : s.grammar.isPlainName name) (stop : w.head?.all endsName) :
    tokensOf s (name.toList ++ w) = .ok (.ofWord name :: ts) ↔ tokensOf s w = .ok ts := by
  obtain ⟨c, rest, hn, start, digit, parts⟩ := exists_cons_of_isPlainName h
  have same : String.ofList (c :: rest) = name := by rw [← hn, String.ofList_toList]
  rw [hn, List.cons_append, ← same]
  exact tokensOf_of_next (next_of_name start digit parts stop)

theorem exponent_of_break (stop : w.head?.all isBreak) : exponent w = ([], w) := by
  match w with
  | [] => rfl
  | d :: w =>
    rcases isBreak_cases stop with rfl | rfl | rfl <;> simp [exponent]

theorem number_of_break (g : Grammar) {digits : List Char} (given : digits ≠ [])
    (all : ∀ d ∈ digits, d.isDigit) (stop : w.head?.all isBreak) :
    number g (digits ++ w) = (.number (String.ofList digits) false, w) := by
  have stops {p : Char → Bool} (hp : ∀ c, isBreak c → p c = false) : w.head?.all (!p ·) := by
    cases hd : w.head? with
    | none => rfl
    | some d =>
      rw [hd] at stop
      simpa using hp d stop
  have isDigit : ∀ c, isBreak c → c.isDigit = false := fun c hc => by
    rcases isBreak_cases hc with rfl | rfl | rfl <;> rfl
  have isPoint : ∀ c, isBreak c → (c == '.') = false := fun c hc => by
    rcases isBreak_cases hc with rfl | rfl | rfl <;> rfl
  have other (q : Char) (hq : isBreak q = false) : w.head? ≠ some q := fun e => by
    rw [e] at stop
    exact absurd stop (by simp [hq])
  have none {p : Char → Bool} (hp : ∀ c, isBreak c → p c = false) : w.takeWhile p = [] ∧ w.dropWhile p = w :=
    span_append (u := []) nofun (stops hp)
  obtain ⟨run, left⟩ := span_append all (stops isDigit)
  have hex : (digits == ['0'] && w.head? == some 'x') = false := by simp [other 'x' rfl]
  have point : ((w.takeWhile (· == '.')).take 1) = [] := by rw [(none isPoint).1]; rfl
  have tail := (none fun c hc => isNamePart_of_endsName (g := g) (endsName_of_isBreak hc)).1
  rw [number_eq]
  simp only [run, left, hex, Bool.false_eq_true, if_false, numberPoint, point, List.length_nil, List.drop_zero,
    none isDigit, List.append_nil]
  simp only [List.isEmpty_eq_false_iff.mpr given, Bool.false_and, Bool.false_eq_true, if_false, numberEnd,
    exponent_of_break stop, List.append_nil, tail, List.isEmpty_nil, Bool.not_true, Bool.and_false]
  exact numberMark_other (other 'L' rfl)

/-- Digits before a break are one token. -/
theorem tokensOf_digits {digits : String} (h : isDigits digits.toList) (stop : w.head?.all isBreak) :
    tokensOf s (digits.toList ++ w) = .ok (.number digits false :: ts) ↔ tokensOf s w = .ok ts := by
  obtain ⟨given, all⟩ := Bool.and_eq_true_iff.mp h
  obtain ⟨c, rest, hn⟩ := List.exists_cons_of_ne_nil (show digits.toList ≠ [] by simpa using given)
  have digit : ∀ d ∈ c :: rest, d.isDigit := hn ▸ List.all_eq_true.mp all
  have first := digit c List.mem_cons_self
  have ne (q : Char) (hq : q.isDigit = false) : (c == q) = false := by
    rw [beq_eq_false_iff_ne]
    rintro rfl
    rw [first] at hq
    cases hq
  have plain : s.grammar.isNameQuote c = false := by
    rw [Bool.eq_false_iff]
    intro quote
    rcases isNameQuote_cases quote with rfl | rfl | rfl <;> cases first
  have read := number_of_break s.grammar (by simp) digit stop
  rw [List.cons_append, ← hn, String.ofList_toList] at read
  rw [hn, List.cons_append]
  refine tokensOf_of_next ?_
  rw [next_eq, nextPlain, read]
  simp [ne 'n' rfl, ne 'N' rfl, ne 'x' rfl, ne 'X' rfl, ne '\x27' rfl, ne '"' rfl, plain, first]

theorem tokensOf_number (n : Nat) (stop : w.head?.all isBreak) :
    tokensOf s ((toString n).toList ++ w) = .ok (.number (toString n) false :: ts) ↔
      tokensOf s w = .ok ts :=
  tokensOf_digits (isDigits_toString n) stop

/-! ## Marks -/

/-- A point before anything but a digit is a mark. -/
theorem tokensOf_point (h : w.head?.all (!·.isDigit)) :
    tokensOf s ('.' :: w) = .ok (.mark .period :: ts) ↔ tokensOf s w = .ok ts := by
  have plain : s.grammar.isNameQuote '.' = false := by
    rw [Bool.eq_false_iff]
    intro quote
    rcases isNameQuote_cases quote with h | h | h <;> cases h
  have literal : next s '.' w = nextPlain s '.' w := rfl
  obtain ⟨none, left⟩ := span_append (u := []) (v := w) (p := Char.isDigit) nofun h
  rw [List.nil_append] at none left
  refine tokensOf_of_next ?_
  rw [literal, nextPlain, plain]
  simp [number, none, left]

theorem next_of_mark {m : Mark} (hc : standsAlone c) (hm : mark? c = some m)
    (hw : w.head?.bind (longMark? c) = none) : next s c w = .ok (some (.mark m), w) := by
  rw [next_of_standsAlone hc, wordOrMark, hw]
  simp only [hm]

/-- A mark before a blank. -/
theorem tokensOf_mark {m : Mark} (hc : standsAlone c) (hm : mark? c = some m) :
    tokensOf s (c :: ' ' :: w) = .ok (.mark m :: ts) ↔ tokensOf s w = .ok ts :=
  (tokensOf_of_next (w := ' ' :: w) (next_of_mark hc hm (longMark_blank c))).trans tokensOf_blank

/-- A mark of two characters. -/
theorem tokensOf_longMark {d : Char} {m : Mark} (hc : standsAlone c) (hm : longMark? c d = some m) :
    tokensOf s (c :: d :: w) = .ok (.mark m :: ts) ↔ tokensOf s w = .ok ts := by
  refine tokensOf_of_next (w := w) ?_
  have long : (d :: w).head?.bind (longMark? c) = some m := hm
  rw [next_of_standsAlone hc, wordOrMark, long]
  rfl

theorem longMark_paren (hc : c = '(' ∨ c = ')') (d : Char) : longMark? c d = none := by
  rcases hc with rfl | rfl <;> unfold longMark? <;> split <;> simp_all

theorem tokensOf_open : tokensOf s ('(' :: w) = .ok (.mark .leftParen :: ts) ↔ tokensOf s w = .ok ts := by
  refine tokensOf_of_next (next_of_mark rfl rfl ?_)
  cases w.head? with
  | none => rfl
  | some d => exact longMark_paren (.inl rfl) d

theorem tokensOf_close : tokensOf s (')' :: w) = .ok (.mark .rightParen :: ts) ↔ tokensOf s w = .ok ts := by
  refine tokensOf_of_next (next_of_mark rfl rfl ?_)
  cases w.head? with
  | none => rfl
  | some d => exact longMark_paren (.inr rfl) d

/-- A plus is a mark whatever follows. -/
theorem tokensOf_plus : tokensOf s ('+' :: w) = .ok (.mark .plus :: ts) ↔ tokensOf s w = .ok ts := by
  refine tokensOf_of_next (next_of_mark rfl rfl ?_)
  cases w.head? <;> rfl

/-- A minus is a mark before anything but another one. -/
theorem tokensOf_minus (h : w.head? ≠ some '-') :
    tokensOf s ('-' :: w) = .ok (.mark .minus :: ts) ↔ tokensOf s w = .ok ts := by
  have plain : s.grammar.isNameQuote '-' = false := by
    rw [Bool.eq_false_iff]
    intro quote
    rcases isNameQuote_cases quote with h | h | h <;> cases h
  have long : w.head?.bind (longMark? '-') = none := by cases w.head? <;> rfl
  have noComment : startsLineComment s.grammar '-' w = false := by simp [startsLineComment, h]
  have literal : next s '-' w = nextPlain s '-' w := rfl
  refine tokensOf_of_next ?_
  rw [literal, nextPlain, nextMark, plain, noComment, wordOrMark, long]
  rfl

/-- A slash is a mark before a blank. -/
theorem tokensOf_slash : tokensOf s ('/' :: ' ' :: w) = .ok (.mark .slash :: ts) ↔ tokensOf s w = .ok ts := by
  have plain : s.grammar.isNameQuote '/' = false := by
    rw [Bool.eq_false_iff]
    intro quote
    rcases isNameQuote_cases quote with h | h | h <;> cases h
  have noComment : startsLineComment s.grammar '/' (' ' :: w) = false := by simp [startsLineComment]
  have literal : next s '/' (' ' :: w) = nextPlain s '/' (' ' :: w) := rfl
  refine (tokensOf_of_next ?_).trans tokensOf_blank
  rw [literal, nextPlain, nextMark, plain, noComment]
  rfl

/-- The tokens of an integer. -/
def intTokens (n : Int) : List Token :=
  if n < 0 then [.mark .minus, .number (toString n.natAbs) false] else [.number (toString n.natAbs) false]

theorem toString_int (n : Int) : (toString n).toList =
    if n < 0 then '-' :: (toString n.natAbs).toList else (toString n.natAbs).toList := by
  cases n with
  | ofNat n => rfl
  | negSucc n =>
    rw [if_pos (Int.negSucc_lt_zero n)]
    have : toString (Int.negSucc n) = "-" ++ toString (n + 1) := rfl
    rw [this, String.toList_append]
    rfl

theorem tokensOf_int (n : Int) (stop : w.head?.all isBreak) :
    tokensOf s ((toString n).toList ++ w) = .ok (intTokens n ++ ts) ↔ tokensOf s w = .ok ts := by
  have digits : tokensOf s ((toString n.natAbs).toList ++ w) = .ok (.number (toString n.natAbs) false :: ts) ↔
    tokensOf s w = .ok ts := tokensOf_number n.natAbs stop
  rw [toString_int, intTokens]
  split
  · obtain ⟨d, rest, hn⟩ := List.exists_cons_of_ne_nil (toString_toList_ne_nil n.natAbs)
    have first : d.isDigit := isDigit_of_mem_toString (hn ▸ List.mem_cons_self)
    have noDash : ((toString n.natAbs).toList ++ w).head? ≠ some '-' := by
      rw [hn]
      rintro ⟨⟩
      cases first
    exact (tokensOf_minus noDash).trans digits
  · exact digits

end DetectionPlan.Sql.Lexer
