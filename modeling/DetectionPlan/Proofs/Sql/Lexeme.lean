/-
Where a token ends in a text. What is cut off the front of a text is cut off
again when a blank stands where the text was to go on: no token becomes longer
or shorter by it.
-/
import DetectionPlan.Sql.Lexer
import Mathlib.Data.List.TakeWhile

namespace DetectionPlan.Sql.Lexer

variable {s : ParserSettings} {g : Grammar} {c q : Char} {u v v' cs rest : List Char}

/-! ## Blanks put into a text -/

/-- The text `v'` goes on as `v` does up to a place where a blank stands in it. -/
def Cut (v v' : List Char) : Prop := ∃ x y w, v = x ++ y ∧ v' = x ++ ' ' :: w

namespace Cut

theorem here (v w : List Char) : Cut v (' ' :: w) := ⟨[], v, w, rfl, rfl⟩

theorem append (u : List Char) (h : Cut v v') : Cut (u ++ v) (u ++ v') := by
  obtain ⟨x, y, w, rfl, rfl⟩ := h
  exact ⟨u ++ x, y, w, by simp, by simp⟩

theorem head_ne (h : Cut v v') (hq : q ≠ ' ') (hv : v.head? ≠ some q) : v'.head? ≠ some q := by
  obtain ⟨x, y, w, rfl, rfl⟩ := h
  cases x with
  | nil => simpa using hq.symm
  | cons a x => simpa using hv

/-- A test for one character that is not a blank fails as before. -/
theorem guard (h : Cut v v') (hq : q ≠ ' ') {b : Bool} (hv : ¬(b && v.head? == some q) = true) :
    ¬(b && v'.head? == some q) = true := by
  cases b with
  | false => exact hv
  | true => simpa using h.head_ne hq (by simpa using hv)

theorem head_all (h : Cut v v') {p : Char → Bool} (hp : p ' ' = false) (hv : v.head?.all (!p ·)) :
    v'.head?.all (!p ·) := by
  obtain ⟨x, y, w, rfl, rfl⟩ := h
  cases x with
  | nil => simp [hp]
  | cons a x => exact hv

theorem head_none (h : Cut v v') {p : Char → Bool} (hp : p ' ' = false) (hv : v.head?.any p = false) :
    v'.head?.any p = false := by
  obtain ⟨x, y, w, rfl, rfl⟩ := h
  cases x with
  | nil => simp [hp]
  | cons a x => exact hv

end Cut

/-- A longest run is the same before anything else that does not go on with it. -/
theorem span_append {p : Char → Bool} (hu : ∀ c ∈ u, p c) (hv : v.head?.all (!p ·)) :
    (u ++ v).takeWhile p = u ∧ (u ++ v).dropWhile p = v := by
  rw [List.takeWhile_append_of_pos hu, List.dropWhile_append_of_pos hu]
  cases v with
  | nil => simp
  | cons a v =>
    have ha : p a = false := by simpa using hv
    simp [ha]

theorem dropWhile_head (p : Char → Bool) (cs : List Char) : (cs.dropWhile p).head?.all (!p ·) := by
  induction cs with
  | nil => rfl
  | cons a cs ih =>
    rw [List.dropWhile_cons]
    split
    · exact ih
    next ha => simpa using ha

/-- A longest run, and the same before a text that is cut. -/
theorem span_cut (p : Char → Bool) (hp : p ' ' = false) (cs : List Char) :
    ∃ u v, cs = u ++ v ∧ cs.takeWhile p = u ∧ cs.dropWhile p = v ∧ ∀ v', Cut v v' →
      (u ++ v').takeWhile p = u ∧ (u ++ v').dropWhile p = v' :=
  ⟨_, _, List.takeWhile_append_dropWhile.symm, rfl, rfl, fun _ h =>
    span_append (fun _ hc => List.mem_takeWhile_imp hc) (h.head_all hp (dropWhile_head p cs))⟩

/-! ## Quoted texts -/

theorem untilQuote_ends {unescape backslash : Bool} (hv : v.head? ≠ some q) :
    untilQuote unescape backslash q (q :: v) = some ([], v) := by
  cases v with
  | nil => simp [untilQuote]
  | cons d v =>
    have other : (d == q) = false := by simpa using hv
    simp [untilQuote, other]

/-- A quoted text ends with its quote, if no other one follows. -/
theorem untilQuote_cut {unescape backslash : Bool} : ∀ {q : Char} {cs text v : List Char},
    untilQuote unescape backslash q cs = some (text, v) → ∃ u, cs = u ++ v ∧ u ≠ [] ∧
      v.head? ≠ some q ∧
      ∀ v', v'.head? ≠ some q → untilQuote unescape backslash q (u ++ v') = some (text, v')
  | _, [], _, _, h => by cases h
  | q, [c], text, v, h => by
    rw [untilQuote] at h
    split at h
    next close =>
      obtain ⟨rfl, rfl⟩ := Prod.mk.inj (Option.some.inj h)
      obtain rfl := eq_of_beq close
      exact ⟨[c], rfl, nofun, nofun, fun v' hv' => untilQuote_ends hv'⟩
    · cases h
  | q, c :: d :: rest, text, v, h => by
    rw [untilQuote] at h
    simp only at h
    split at h
    next open_ =>
      obtain rfl := eq_of_beq open_
      split at h
      next doubled =>
        obtain ⟨⟨more, rest'⟩, read, made⟩ := Option.map_eq_some_iff.mp h
        obtain ⟨rfl, rfl⟩ := Prod.mk.inj made
        obtain ⟨u, rfl, -, ends, again⟩ := untilQuote_cut read
        refine ⟨c :: d :: u, rfl, nofun, ends, fun v' hv' => ?_⟩
        simp only [List.cons_append, untilQuote, again v' hv', doubled, beq_self_eq_true, if_true,
          Option.map_some]
      next other =>
        obtain ⟨rfl, rfl⟩ := Prod.mk.inj (Option.some.inj h)
        exact ⟨[c], rfl, nofun, by simpa using other, fun v' hv' => untilQuote_ends hv'⟩
    next other =>
      split at h
      next pair =>
        obtain ⟨⟨more, rest'⟩, read, made⟩ := Option.map_eq_some_iff.mp h
        obtain ⟨rfl, rfl⟩ := Prod.mk.inj made
        obtain ⟨u, rfl, -, ends, again⟩ := untilQuote_cut read
        refine ⟨c :: d :: u, rfl, nofun, ends, fun v' hv' => ?_⟩
        simp only [List.cons_append, untilQuote, again v' hv', other, pair, if_true, if_false,
          Bool.false_eq_true, Option.map_some]
      next plain =>
        obtain ⟨⟨more, rest'⟩, read, made⟩ := Option.map_eq_some_iff.mp h
        obtain ⟨rfl, rfl⟩ := Prod.mk.inj made
        obtain ⟨u, split, given, ends, again⟩ := untilQuote_cut read
        obtain ⟨a, u, rfl⟩ := List.exists_cons_of_ne_nil given
        obtain ⟨rfl, rfl⟩ := List.cons.inj split
        refine ⟨c :: d :: u, rfl, nofun, ends, fun v' hv' => ?_⟩
        have again := again v' hv'
        simp only [List.cons_append] at again
        simp only [List.cons_append, untilQuote, again, other, plain, if_false, Bool.false_eq_true,
          Option.map_some]

theorem untilTripleQuote_cut : ∀ {cs text v : List Char}, untilTripleQuote q cs = some (text, v) →
    ∃ u, cs = u ++ v ∧ 3 ≤ u.length ∧ ∀ v', untilTripleQuote q (u ++ v') = some (text, v')
  | [], _, _, h => by cases h
  | c :: rest, text, v, h => by
    rw [untilTripleQuote] at h
    split at h
    next close =>
      obtain ⟨rfl, rfl⟩ := Prod.mk.inj (Option.some.inj h)
      obtain ⟨first, pair⟩ := Bool.and_eq_true_iff.mp close
      have split := List.take_append_drop 2 rest
      rw [eq_of_beq pair] at split
      refine ⟨[c, q, q], by rw [List.cons_append, split], Nat.le_refl 3, fun v' => ?_⟩
      simp [untilTripleQuote, first]
    next other =>
      obtain ⟨⟨more, rest'⟩, read, made⟩ := Option.map_eq_some_iff.mp h
      obtain ⟨rfl, rfl⟩ := Prod.mk.inj made
      obtain ⟨u, rfl, long, again⟩ := untilTripleQuote_cut read
      refine ⟨c :: u, rfl, by simp; omega, fun v' => ?_⟩
      have same : (u ++ v').take 2 = (u ++ rest').take 2 := by
        rw [List.take_append_of_le_length (by omega), List.take_append_of_le_length (by omega)]
      rw [List.cons_append, untilTripleQuote, same, if_neg other, again]
      rfl

theorem quoted_ok {make : String → Token} {read : Option (List Char × List Char)} {t : Option Token}
    (h : quoted make read = .ok (t, v)) :
    ∃ text, read = some (text, v) ∧ t = some (make (String.ofList text)) := by
  cases read with
  | none => cases h
  | some r =>
    obtain ⟨rfl, rfl⟩ := Prod.mk.inj (Except.ok.inj h)
    exact ⟨r.1, rfl, rfl⟩

theorem quoted_cut {make : String → Token} {unescape backslash : Bool} {t : Option Token} (hq : q ≠ ' ')
    (h : quoted make (untilQuote unescape backslash q cs) = .ok (t, v)) :
    ∃ u, cs = u ++ v ∧ u ≠ [] ∧ v.head? ≠ some q ∧ ∀ v', Cut v v' →
      quoted make (untilQuote unescape backslash q (u ++ v')) = .ok (t, v') := by
  obtain ⟨text, read, rfl⟩ := quoted_ok h
  obtain ⟨u, rfl, given, ends, again⟩ := untilQuote_cut read
  exact ⟨u, rfl, given, ends, fun v' hv' => by rw [again v' (hv'.head_ne hq ends)]; rfl⟩

theorem string_cut {t : Option Token} (hq : q ≠ ' ') (h : string s q cs = .ok (t, v)) :
    ∃ u, cs = u ++ v ∧ ∀ v', Cut v v' → string s q (u ++ v') = .ok (t, v') := by
  unfold string at h
  split at h
  next triple =>
    obtain ⟨text, read, rfl⟩ := quoted_ok h
    obtain ⟨u, rest, -, again⟩ := untilTripleQuote_cut read
    have pair := (Bool.and_eq_true_iff.mp triple).2
    have split := List.take_append_drop 2 cs
    rw [eq_of_beq pair, rest] at split
    refine ⟨q :: q :: u, split.symm, fun v' _ => ?_⟩
    rw [string, if_pos (by simpa using (Bool.and_eq_true_iff.mp triple).1), List.cons_append,
      List.cons_append, List.drop_succ_cons, List.drop_succ_cons, List.drop_zero, again]
    rfl
  next single =>
    obtain ⟨u, rfl, given, ends, again⟩ := quoted_cut hq h
    refine ⟨u, rfl, fun v' hv' => ?_⟩
    have ends' := hv'.head_ne hq ends
    have single' : ¬(s.grammar.hasTripleQuotes && (u ++ v').take 2 == [q, q]) = true := by
      match u with
      | [] => exact absurd rfl given
      | [a] => cases v' <;> simp_all
      | a :: b :: u => simpa using single
    rw [string, if_neg single', again v' hv']

/-! ## Comments -/

theorem afterComment_suffix {depth : Nat} (h : afterComment depth cs = some v) : ∃ u, cs = u ++ v := by
  fun_induction afterComment depth cs with
  | case1 depth rest ih =>
    obtain ⟨u, rfl⟩ := ih h
    exact ⟨'/' :: '*' :: u, rfl⟩
  | case2 depth rest zero =>
    obtain rfl := Option.some.inj h
    exact ⟨['*', '/'], rfl⟩
  | case3 depth rest deeper ih =>
    obtain ⟨u, rfl⟩ := ih h
    exact ⟨'*' :: '/' :: u, rfl⟩
  | case4 depth c rest opens closes ih =>
    obtain ⟨u, rfl⟩ := ih h
    exact ⟨c :: u, rfl⟩
  | case5 => cases h

/-! ## Numbers -/

theorem isNamePart_blank (g : Grammar) : g.isNamePart ' ' = false := by cases g <;> decide +kernel

theorem isNameStart_blank (g : Grammar) : g.isNameStart ' ' = false := by cases g <;> decide +kernel

/-- Whether a sign stands before the digits of an exponent. -/
def isSign (c : Char) : Bool := c == '+' || c == '-'

theorem exponent_signed {e c : Char} (hc : isSign c) (digits : List Char) :
    exponent (e :: c :: digits) =
      if (e == 'e' || e == 'E') && digits.head?.any Char.isDigit then
        (e :: c :: digits.takeWhile Char.isDigit, digits.dropWhile Char.isDigit)
      else ([], e :: c :: digits) := by
  have sign : (c == '+' || c == '-') = true := hc
  simp only [exponent, sign, if_true]
  rfl

theorem exponent_unsigned {e : Char} {digits : List Char} (hd : digits.head?.all (!isSign ·)) :
    exponent (e :: digits) =
      if (e == 'e' || e == 'E') && digits.head?.any Char.isDigit then
        (e :: digits.takeWhile Char.isDigit, digits.dropWhile Char.isDigit)
      else ([], e :: digits) := by
  cases digits with
  | nil => rfl
  | cons c digits =>
    have plain : (c == '+' || c == '-') = false := by simpa [isSign] using hd
    simp only [exponent, plain, Bool.false_eq_true, if_false]
    rfl

/-- Where no digits follow, there is no exponent. -/
theorem exponent_none_cut {y w : List Char} : ∀ x : List Char, (exponent (x ++ y)).1 = [] →
    exponent (x ++ ' ' :: w) = ([], x ++ ' ' :: w)
  | [], _ => by
    match w with
    | [] => rfl
    | c :: w =>
      by_cases hc : isSign c
      · exact exponent_signed hc w
      · exact exponent_unsigned (by simpa using hc)
  | [e], _ => (exponent_unsigned rfl).trans (by simp [show Char.isDigit ' ' = false from rfl])
  | e :: c :: x, h => by
    by_cases hc : isSign c
    · rw [List.cons_append, List.cons_append, exponent_signed hc] at h ⊢
      cases x with
      | nil => simp [show Char.isDigit ' ' = false from rfl]
      | cons d x =>
        by_cases digits : ((e == 'e' || e == 'E') && d.isDigit) = true
        · simp [digits] at h
        · simp [digits]
    · have plain (z : List Char) : (c :: z).head?.all (!isSign ·) := by simpa using hc
      rw [List.cons_append, List.cons_append, exponent_unsigned (plain _)] at h ⊢
      by_cases digits : ((e == 'e' || e == 'E') && c.isDigit) = true
      · simp [digits] at h
      · simp [digits]

/-- A mark, digits and maybe a sign between them make an exponent. -/
theorem exponent_some_cut {e : Char} {sign digits : List Char} (he : (e == 'e' || e == 'E') = true)
    (hs : sign = [] ∨ ∃ c, sign = [c] ∧ isSign c) (hd : digits.head?.any Char.isDigit) :
    exponent (e :: (sign ++ digits)) =
      (e :: (sign ++ digits.takeWhile Char.isDigit), digits.dropWhile Char.isDigit) := by
  have cond : ((e == 'e' || e == 'E') && digits.head?.any Char.isDigit) = true :=
    Bool.and_eq_true_iff.mpr ⟨he, hd⟩
  rcases hs with rfl | ⟨c, rfl, hc⟩
  · have plain : digits.head?.all (!isSign ·) := by
      cases digits with
      | nil => rfl
      | cons d digits =>
        have other : isSign d = false := by
          by_cases sign : isSign d
          · have : d = '+' ∨ d = '-' := by simpa [isSign] using sign
            rcases this with rfl | rfl <;> cases hd
          · simpa using sign
        simp [other]
    exact (exponent_unsigned plain).trans (if_pos cond)
  · exact (exponent_signed hc digits).trans (if_pos cond)

theorem exponent_eq (cs : List Char) : exponent cs = ([], cs) ∨ ∃ e sign digits,
    cs = e :: (sign ++ digits) ∧ (e == 'e' || e == 'E') = true ∧
      (sign = [] ∨ ∃ c, sign = [c] ∧ isSign c) ∧ digits.head?.any Char.isDigit := by
  match cs with
  | [] => exact .inl rfl
  | e :: rest =>
    by_cases signed : ∃ c digits, rest = c :: digits ∧ isSign c
    · obtain ⟨c, digits, rfl, hc⟩ := signed
      rw [exponent_signed hc]
      split
      next found =>
        obtain ⟨he, hd⟩ := Bool.and_eq_true_iff.mp found
        exact .inr ⟨e, [c], digits, rfl, he, .inr ⟨c, rfl, hc⟩, hd⟩
      · exact .inl rfl
    · have plain : rest.head?.all (!isSign ·) := by
        cases rest with
        | nil => rfl
        | cons c digits => simpa using fun hc => signed ⟨c, digits, rfl, hc⟩
      rw [exponent_unsigned plain]
      split
      next found =>
        obtain ⟨he, hd⟩ := Bool.and_eq_true_iff.mp found
        exact .inr ⟨e, [], rest, rfl, he, .inl rfl, hd⟩
      · exact .inl rfl

theorem exponent_cut (cs : List Char) :
    ∃ u v, cs = u ++ v ∧ exponent cs = (u, v) ∧ ∀ v', Cut v v' → exponent (u ++ v') = (u, v') := by
  rcases exponent_eq cs with none | ⟨e, sign, digits, rfl, he, hs, hd⟩
  · refine ⟨[], cs, rfl, none, ?_⟩
    rintro _ ⟨x, y, w, rfl, rfl⟩
    exact exponent_none_cut x (by rw [none])
  · obtain ⟨ds, v, rfl, run, left, again⟩ := span_cut Char.isDigit rfl digits
    refine ⟨e :: (sign ++ ds), v, by simp, ?_, fun v' hv' => ?_⟩
    · rw [exponent_some_cut he hs hd, run, left]
    · obtain ⟨run', left'⟩ := again v' hv'
      have some : (ds ++ v').head?.any Char.isDigit := by
        cases ds with
        | nil =>
          obtain ⟨d, v, rfl⟩ : ∃ d v', v = d :: v' := by cases v <;> simp_all
          simp_all
        | cons d ds => exact hd
      rw [List.cons_append, List.append_assoc, exponent_some_cut he hs some, run', left']

/-- A number of some digits, marked as long if it is. -/
def numberMark (digits : String) (rest : List Char) : Token × List Char :=
  match rest with
  | 'L' :: rest => (.number digits true, rest)
  | _ => (.number digits false, rest)

/-- A number from behind its digits. -/
def numberEnd (g : Grammar) (digits rest : List Char) : Token × List Char :=
  let (power, rest) := exponent rest
  let digits := digits ++ power
  let tail := rest.takeWhile g.isNamePart
  if g.hasNumericNames && power.isEmpty && !tail.isEmpty then
    (Token.ofWord (String.ofList (digits ++ tail)), rest.dropWhile g.isNamePart)
  else numberMark (String.ofList digits) rest

/-- A number from behind its digits before a point. -/
def numberPoint (g : Grammar) (whole rest : List Char) : Token × List Char :=
  let point := rest.takeWhile (· == '.') |>.take 1
  let rest := rest.drop point.length
  let fraction := rest.takeWhile Char.isDigit
  let rest := rest.dropWhile Char.isDigit
  if whole.isEmpty && fraction.isEmpty then (.mark .period, rest)
  else numberEnd g (whole ++ point ++ fraction) rest

theorem number_eq (g : Grammar) (cs : List Char) : number g cs =
    let whole := cs.takeWhile Char.isDigit
    let rest := cs.dropWhile Char.isDigit
    if whole == ['0'] && rest.head? == some 'x' then
      let rest := rest.drop 1
      (.string .hex (String.ofList (rest.takeWhile isHexDigit)), rest.dropWhile isHexDigit)
    else numberPoint g whole rest := rfl

theorem numberMark_other {digits : String} (h : rest.head? ≠ some 'L') :
    numberMark digits rest = (.number digits false, rest) := by
  unfold numberMark
  split
  · exact absurd rfl h
  · rfl

theorem numberMark_cut (digits : String) (cs : List Char) : ∃ u v token, cs = u ++ v ∧
    numberMark digits cs = (token, v) ∧ ∀ v', Cut v v' → numberMark digits (u ++ v') = (token, v') := by
  by_cases long : cs.head? = some 'L'
  · obtain ⟨v, rfl⟩ := List.head?_eq_some_iff.mp long
    exact ⟨['L'], v, _, rfl, rfl, fun _ _ => rfl⟩
  · exact ⟨[], cs, _, rfl, numberMark_other long, fun v' hv' =>
      numberMark_other (hv'.head_ne (by decide) long)⟩

theorem isEmpty_takeWhile (p : Char → Bool) (cs : List Char) :
    (cs.takeWhile p).isEmpty = !cs.head?.any p := by
  cases cs with
  | nil => rfl
  | cons c cs => cases hc : p c <;> simp [hc]

theorem numberEnd_cut (digits cs : List Char) : ∃ u v token, cs = u ++ v ∧
    numberEnd g digits cs = (token, v) ∧
      ∀ v', Cut v v' → numberEnd g digits (u ++ v') = (token, v') := by
  obtain ⟨power, rest, rfl, first, again⟩ := exponent_cut cs
  by_cases named : (g.hasNumericNames && power.isEmpty && rest.head?.any g.isNamePart) = true
  · obtain ⟨tail, v, rfl, run, left, again'⟩ := span_cut g.isNamePart (isNamePart_blank g) rest
    have given : tail.isEmpty = false := by
      rw [← run, isEmpty_takeWhile, (Bool.and_eq_true_iff.mp named).2]
      rfl
    have named : (g.hasNumericNames && power.isEmpty) = true := (Bool.and_eq_true_iff.mp named).1
    refine ⟨power ++ tail, v, .ofWord (String.ofList (digits ++ power ++ tail)), by simp, ?_, fun v' hv' => ?_⟩
    · simp only [numberEnd, first, run, left, named, given, Bool.not_false, Bool.and_self, if_true]
    · obtain ⟨run', left'⟩ := again' v' hv'
      simp only [numberEnd, List.append_assoc, again _ (hv'.append tail), run', left', named, given,
        Bool.not_false, Bool.and_self, if_true]
  · obtain ⟨mark, v, token, rfl, marked, again'⟩ := numberMark_cut (String.ofList (digits ++ power)) rest
    have plain {z : List Char} (hz : (mark ++ v).head?.any g.isNamePart = false → z.head?.any g.isNamePart = false) :
        (g.hasNumericNames && power.isEmpty && z.head?.any g.isNamePart) = false := by
      cases hn : g.hasNumericNames && power.isEmpty with
      | false => rfl
      | true => simpa using hz (by simpa [hn] using named)
    refine ⟨power ++ mark, v, token, by simp, ?_, fun v' hv' => ?_⟩
    · simp only [numberEnd, first, isEmpty_takeWhile, Bool.not_not, plain id, Bool.false_eq_true, if_false]
      exact marked
    · have same := plain fun h => ((hv'.append mark).head_none (isNamePart_blank g) h)
      simp only [numberEnd, List.append_assoc, again _ (hv'.append mark), isEmpty_takeWhile, Bool.not_not,
        same, Bool.false_eq_true, if_false]
      exact again' v' hv'

theorem point_cut (cs : List Char) : ∃ u v, cs = u ++ v ∧ (cs.head? = some '.' → u ≠ []) ∧
    (cs.takeWhile (· == '.')).take 1 = u ∧
      ∀ v', Cut v v' → ((u ++ v').takeWhile (· == '.')).take 1 = u := by
  by_cases point : cs.head? = some '.'
  · obtain ⟨v, rfl⟩ := List.head?_eq_some_iff.mp point
    exact ⟨['.'], v, rfl, nofun, rfl, fun _ _ => rfl⟩
  · have none {z : List Char} (hz : z.head? ≠ some '.') : (z.takeWhile (· == '.')).take 1 = [] := by
      cases z with
      | nil => rfl
      | cons c z =>
        have other : (c == '.') = false := by simpa using hz
        simp [other]
    exact ⟨[], cs, rfl, fun h => absurd h point, none point, fun v' hv' =>
      none (hv'.head_ne (by decide) point)⟩

theorem numberPoint_cut (whole cs : List Char) : ∃ u v token, cs = u ++ v ∧
    (cs.head? = some '.' → u ≠ []) ∧ numberPoint g whole cs = (token, v) ∧
      ∀ v', Cut v v' → numberPoint g whole (u ++ v') = (token, v') := by
  obtain ⟨point, rest, rfl, given, first, again⟩ := point_cut cs
  obtain ⟨fraction, rest, rfl, run, left, again'⟩ := span_cut Char.isDigit rfl rest
  by_cases mark : (whole.isEmpty && fraction.isEmpty) = true
  · refine ⟨point ++ fraction, rest, .mark .period, by simp, fun h => by simp [given h], ?_, fun v' hv' => ?_⟩
    · simp only [numberPoint, first, List.drop_left, run, left, mark, if_true]
    · obtain ⟨run', left'⟩ := again' v' hv'
      simp only [numberPoint, List.append_assoc, again _ (hv'.append fraction), List.drop_left, run', left',
        mark, if_true]
  · obtain ⟨ends, v, token, rfl, read, again''⟩ := numberEnd_cut (g := g) (whole ++ (point ++ fraction)) rest
    refine ⟨point ++ (fraction ++ ends), v, token, by simp, fun h => by simp [given h], ?_, fun v' hv' => ?_⟩
    · simp only [numberPoint, first, List.drop_left, run, left, mark, Bool.false_eq_true, if_false,
        List.append_assoc]
      exact read
    · obtain ⟨run', left'⟩ := again' _ (hv'.append ends)
      have := again _ ((hv'.append ends).append fraction)
      simp only [numberPoint, List.append_assoc, this, List.drop_left, run', left', mark,
        Bool.false_eq_true, if_false]
      exact again'' v' hv'

/-- Whether a number is written in hexadecimal digits. -/
def startsHex (cs : List Char) : Bool :=
  cs.takeWhile Char.isDigit == ['0'] && (cs.dropWhile Char.isDigit).head? == some 'x'

theorem hexNumber_cut {cs : List Char} (hex : startsHex cs) : ∃ u v token, cs = u ++ v ∧ u ≠ [] ∧
    number g cs = (token, v) ∧ ∀ v', Cut v v' → number g (u ++ v') = (token, v') := by
  obtain ⟨whole, rest, rfl, run, left, again⟩ := span_cut Char.isDigit rfl cs
  rw [startsHex, run, left] at hex
  obtain ⟨zero, mark⟩ := Bool.and_eq_true_iff.mp hex
  obtain ⟨rest, rfl⟩ := List.head?_eq_some_iff.mp (eq_of_beq mark)
  obtain ⟨digits, v, rfl, run', left', again'⟩ := span_cut isHexDigit rfl rest
  refine ⟨whole ++ 'x' :: digits, v, .string .hex (String.ofList digits), by simp, by simp, ?_,
    fun v' hv' => ?_⟩
  · simp only [number_eq, run, left, hex, if_true, List.drop_succ_cons, List.drop_zero, run', left']
  · obtain ⟨run'', left''⟩ := again' v' hv'
    obtain ⟨run₁, left₁⟩ := again _ (hv'.append ('x' :: digits))
    simp only [List.cons_append] at run₁ left₁
    simp only [number_eq, List.append_assoc, List.cons_append, run₁, left₁, zero, List.head?_cons,
      beq_self_eq_true, Bool.and_self, if_true, List.drop_succ_cons, List.drop_zero, run'', left'']

theorem decimalNumber_cut {cs : List Char} (hc : (c.isDigit || c == '.') = true)
    (hex : startsHex (c :: cs) = false) : ∃ u v token, c :: cs = u ++ v ∧ u ≠ [] ∧
      number g (c :: cs) = (token, v) ∧ ∀ v', Cut v v' → number g (u ++ v') = (token, v') := by
  obtain ⟨whole, rest, split, run, left, again⟩ := span_cut Char.isDigit rfl (c :: cs)
  rw [startsHex, run, left] at hex
  obtain ⟨ends, v, token, rfl, given, read, again'⟩ := numberPoint_cut (g := g) whole rest
  refine ⟨whole ++ ends, v, token, by simpa using split, ?_, ?_, fun v' hv' => ?_⟩
  · -- Where no digits come first a point does, and the point is taken.
    intro none
    obtain ⟨rfl, rfl⟩ := List.append_eq_nil_iff.mp none
    have plain : c.isDigit = false := by
      cases hd : c.isDigit with
      | false => rfl
      | true => simp [hd] at run
    have point : c = '.' := by simpa [plain] using hc
    refine given ?_ rfl
    rw [List.nil_append] at split
    rw [← split, point]
    rfl
  · simp only [number_eq, run, left, hex, Bool.false_eq_true, if_false]
    exact read
  · have shifted := hv'.append ends
    obtain ⟨run₁, left₁⟩ := again _ shifted
    have plain : ¬(whole == ['0'] && (ends ++ v').head? == some 'x') = true := fun h => by
      obtain ⟨zero, mark⟩ := Bool.and_eq_true_iff.mp h
      refine shifted.head_ne (q := 'x') (by decide) (fun first => ?_) (eq_of_beq mark)
      rw [zero, first] at hex
      cases hex
    simp only [number_eq, List.append_assoc, run₁, left₁]
    rw [if_neg plain]
    exact again' v' hv'

theorem number_cut (hc : (c.isDigit || c == '.') = true) (cs : List Char) : ∃ u v token, cs = u ++ v ∧
    number g (c :: cs) = (token, v) ∧ ∀ v', Cut v v' → number g (c :: (u ++ v')) = (token, v') := by
  have cut : ∃ u v token, c :: cs = u ++ v ∧ u ≠ [] ∧ number g (c :: cs) = (token, v) ∧
      ∀ v', Cut v v' → number g (u ++ v') = (token, v') := by
    cases hex : startsHex (c :: cs) with
    | true => exact hexNumber_cut hex
    | false => exact decimalNumber_cut hc hex
  obtain ⟨u, v, token, same, given, read, again⟩ := cut
  obtain ⟨a, u, rfl⟩ := List.exists_cons_of_ne_nil given
  obtain ⟨rfl, rfl⟩ := List.cons.inj same
  exact ⟨u, v, token, rfl, read, again⟩

/-! ## Words and marks -/

theorem longMark_blank (c : Char) : longMark? c ' ' = none := by
  unfold longMark?
  split <;> simp_all

theorem longMark_cut (h : cs.head?.bind (longMark? c) = none) (hv : Cut cs v') :
    v'.head?.bind (longMark? c) = none := by
  obtain ⟨x, y, w, rfl, rfl⟩ := hv
  cases x with
  | nil => exact longMark_blank c
  | cons a x => exact h

theorem wordOrMark_cut (c : Char) (cs : List Char) : ∃ u v t, cs = u ++ v ∧
    wordOrMark g c cs = (t, v) ∧ ∀ v', Cut v v' → wordOrMark g c (u ++ v') = (t, v') := by
  cases long : cs.head?.bind (longMark? c) with
  | some m =>
    obtain ⟨d, first, mark⟩ := Option.bind_eq_some_iff.mp long
    obtain ⟨v, rfl⟩ := List.head?_eq_some_iff.mp first
    refine ⟨[d], v, some (.mark m), rfl, ?_, fun v' _ => ?_⟩
    · simp [wordOrMark, mark]
    · simp [wordOrMark, mark]
  | none =>
    cases short : mark? c with
    | some m =>
      refine ⟨[], cs, some (.mark m), rfl, ?_, fun v' hv' => ?_⟩
      · simp [wordOrMark, long, short]
      · simp [wordOrMark, longMark_cut long hv', short]
    | none =>
      by_cases name : g.isNameStart c
      · obtain ⟨part, v, rfl, run, left, again⟩ := span_cut g.isNamePart (isNamePart_blank g) cs
        refine ⟨part, v, some (.ofWord (String.ofList (c :: part))), rfl, ?_, fun v' hv' => ?_⟩
        · simp only [wordOrMark, long, short, name, if_true, run, left]
        · obtain ⟨run', left'⟩ := again v' hv'
          have long' := longMark_cut long (hv'.append part)
          simp only [wordOrMark, long', short, name, if_true, run', left']
      · by_cases blank : isBlank c
        · refine ⟨[], cs, none, rfl, ?_, fun v' hv' => ?_⟩
          · simp [wordOrMark, long, short, name, blank]
          · simp [wordOrMark, longMark_cut long hv', short, name, blank]
        · refine ⟨[], cs, some (.other c), rfl, ?_, fun v' hv' => ?_⟩
          · simp [wordOrMark, long, short, name, blank]
          · simp [wordOrMark, longMark_cut long hv', short, name, blank]

/-! ## Tokens -/

/-- What starts no comment starts none before a blank. -/
theorem startsLineComment_cut (h : startsLineComment g c (u ++ v) = false) (hu : c = '-' → u = [])
    (w : List Char) : startsLineComment g c (u ++ ' ' :: w) = false := by
  have slash := ((Cut.here v w).append u).guard (q := '/') (b := c == '/') (by decide)
  unfold startsLineComment at h ⊢
  simp only [Bool.or_eq_false_iff] at h ⊢
  refine ⟨⟨?_, h.1.2⟩, ?_⟩
  · by_cases dash : c = '-'
    · simp [hu dash]
    · simp [dash]
  · cases hs : g.hasSlashComments with
    | false => exact Bool.and_false _
    | true =>
      rw [hs, Bool.and_true] at h
      rw [Bool.and_true]
      exact Bool.eq_false_iff.mpr (slash (Bool.eq_false_iff.mp h.2))

/-- A comment, blank, mark or word. -/
def nextMark (g : Grammar) (c : Char) (rest : List Char) : Except SyntaxFault (Option Token × List Char) :=
  if startsLineComment g c rest then .ok (none, afterLine rest)
  else if c == '/' && rest.head? == some '*' then
    match afterComment 0 (rest.drop 1) with
    | some rest => .ok (none, rest)
    | none => .error .token
  else .ok (wordOrMark g c rest)

/-- What no letter marks as a literal of another kind. -/
def nextPlain (s : ParserSettings) (c : Char) (rest : List Char) :
    Except SyntaxFault (Option Token × List Char) :=
  if c == '\x27' || (c == '"' && !s.grammar.isNameQuote c) then string s c rest
  else if s.grammar.isNameQuote c then
    quoted (fun name => .word ⟨name, some c⟩ none) (untilQuote s.unescape false (closing c) rest)
  else if c.isDigit || c == '.' then
    .ok (some (number s.grammar (c :: rest)).1, (number s.grammar (c :: rest)).2)
  else nextMark s.grammar c rest

/-- A literal that a letter before its quotes marks. -/
def nextMarked (s : ParserSettings) (kind : StringKind) (rest : List Char) :
    Except SyntaxFault (Option Token × List Char) :=
  quoted (.string kind) (untilQuote s.unescape true '\x27' (rest.drop 1))

theorem next_eq (s : ParserSettings) (c : Char) (rest : List Char) : next s c rest =
    if (c == 'n' || c == 'N') && rest.head? == some '\x27' then nextMarked s .national rest
    else if (c == 'x' || c == 'X') && rest.head? == some '\x27' then nextMarked s .hex rest
    else nextPlain s c rest := rfl

/-- What `f` takes off the front of a text is taken again before a blank, if it is a
token and no comment. -/
def Parts (f : List Char → Except SyntaxFault (Option Token × List Char)) : Prop :=
  ∀ {cs v t}, f cs = .ok (t, v) →
    ∃ u, cs = u ++ v ∧ (t ≠ none → ∀ w, f (u ++ ' ' :: w) = .ok (t, ' ' :: w))

theorem nextMark_parts : Parts (nextMark g c) := by
  intro cs v t h
  unfold nextMark at h
  split at h
  next line =>
    obtain ⟨rfl, rfl⟩ := Prod.mk.inj (Except.ok.inj h)
    exact ⟨_, List.takeWhile_append_dropWhile.symm, fun some => absurd rfl some⟩
  next notLine =>
  split at h
  next block =>
    split at h
    next left hc =>
      obtain ⟨rfl, rfl⟩ := Prod.mk.inj (Except.ok.inj h)
      obtain ⟨u, suffix⟩ := afterComment_suffix hc
      refine ⟨cs.take 1 ++ u, ?_, fun some => absurd rfl some⟩
      rw [List.append_assoc, ← suffix, List.take_append_drop]
    · cases h
  next notBlock =>
    obtain ⟨u, v₁, t₁, rfl, read, again⟩ := wordOrMark_cut (g := g) c cs
    rw [read] at h
    obtain ⟨rfl, rfl⟩ := Prod.mk.inj (Except.ok.inj h)
    refine ⟨u, rfl, fun _ w => ?_⟩
    have dash (hc : c = '-') : u = [] := by
      subst hc
      have short : (u ++ v₁).head?.bind (longMark? '-') = none := by
        cases (u ++ v₁).head? <;> rfl
      have whole : wordOrMark g '-' (u ++ v₁) = (some (.mark .minus), u ++ v₁) := by
        simp only [wordOrMark, short]
        rfl
      have := (Prod.mk.inj (whole.symm.trans read)).2
      simpa using this
    have notLine' := startsLineComment_cut (Bool.eq_false_iff.mpr notLine) dash w
    have cut := (Cut.here v₁ w).append u
    rw [nextMark, if_neg (Bool.eq_false_iff.mp notLine'), if_neg (cut.guard (by decide) notBlock),
      again _ (.here v₁ w)]

theorem nextPlain_parts : Parts (nextPlain s c) := by
  intro cs v t h
  unfold nextPlain at h
  split at h
  next quote =>
    have blank : c ≠ ' ' := by
      rintro rfl
      cases quote
    obtain ⟨u, rfl, again⟩ := string_cut blank h
    refine ⟨u, rfl, fun _ w => ?_⟩
    rw [nextPlain, if_pos quote]
    exact again _ (.here v w)
  next notQuote =>
  split at h
  next name =>
    have blank : closing c ≠ ' ' := by
      unfold closing
      split
      · decide
      · rintro rfl
        cases hg : s.grammar <;> rw [hg] at name <;> cases name
    obtain ⟨u, rfl, -, -, again⟩ := quoted_cut blank h
    refine ⟨u, rfl, fun _ w => ?_⟩
    rw [nextPlain, if_neg notQuote, if_pos name]
    exact again _ (.here v w)
  next notName =>
  split at h
  next digit =>
    obtain ⟨u, v₁, token, rfl, read, again⟩ := number_cut (g := s.grammar) digit cs
    rw [read] at h
    obtain ⟨rfl, rfl⟩ := Prod.mk.inj (Except.ok.inj h)
    refine ⟨u, rfl, fun _ w => ?_⟩
    rw [nextPlain, if_neg notQuote, if_neg notName, if_pos digit, again _ (.here v₁ w)]
  next notDigit =>
    obtain ⟨u, rfl, again⟩ := nextMark_parts h
    refine ⟨u, rfl, fun some w => ?_⟩
    rw [nextPlain, if_neg notQuote, if_neg notName, if_neg notDigit]
    exact again some w

theorem nextMarked_cut {kind : StringKind} {t : Option Token} (h : nextMarked s kind cs = .ok (t, v))
    (open_ : cs.head? = some '\x27') : ∃ u, cs = '\x27' :: u ++ v ∧ ∀ w,
      nextMarked s kind ('\x27' :: u ++ ' ' :: w) = .ok (t, ' ' :: w) := by
  obtain ⟨cs, rfl⟩ := List.head?_eq_some_iff.mp open_
  obtain ⟨u, same, -, -, again⟩ := quoted_cut (by decide) h
  exact ⟨u, congrArg _ same, fun w => again _ (.here v w)⟩

/-- A token ends where it did when a blank stands behind it. -/
theorem next_parts : Parts (next s c) := by
  intro cs v t h
  rw [next_eq] at h
  split at h
  next national =>
    obtain ⟨letter, open_⟩ := Bool.and_eq_true_iff.mp national
    obtain ⟨u, rfl, again⟩ := nextMarked_cut h (eq_of_beq open_)
    refine ⟨_, rfl, fun _ w => ?_⟩
    have national' : ((c == 'n' || c == 'N') && ('\x27' :: u ++ ' ' :: w).head? == some '\x27') = true :=
      national
    rw [next_eq, if_pos national']
    exact again w
  next notNational =>
  split at h
  next hex =>
    obtain ⟨letter, open_⟩ := Bool.and_eq_true_iff.mp hex
    obtain ⟨u, rfl, again⟩ := nextMarked_cut h (eq_of_beq open_)
    refine ⟨_, rfl, fun _ w => ?_⟩
    have notNational' : ¬((c == 'n' || c == 'N') && ('\x27' :: u ++ ' ' :: w).head? == some '\x27') = true :=
      notNational
    have hex' : ((c == 'x' || c == 'X') && ('\x27' :: u ++ ' ' :: w).head? == some '\x27') = true := hex
    rw [next_eq, if_neg notNational', if_pos hex']
    exact again w
  next notHex =>
    obtain ⟨u, rfl, again⟩ := nextPlain_parts h
    refine ⟨u, rfl, fun some w => ?_⟩
    have cut := (Cut.here v w).append u
    rw [next_eq, if_neg (cut.guard (by decide) notNational), if_neg (cut.guard (by decide) notHex)]
    exact again some w

end DetectionPlan.Sql.Lexer
