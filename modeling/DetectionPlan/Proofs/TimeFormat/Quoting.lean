/-
Quotes within the quoted text of a date pattern. Text in quotes with its own quotes doubled is read
part by part, as what stands between its quotes (`ReadAs.doubled`), so each run of quotes within it is
written one quote shorter, and text is written as it is exactly if there is no quote in it
(`parse_stringLiteral_year`).
-/
import DetectionPlan.Proofs.TimeFormat.Filter

namespace DetectionPlan

open Outcome (map_ok_iff)

/-- Texts by their first quotes: what holds of texts without a quote, and of a text with a quote if it
holds of what stands behind the first, holds of all texts. -/
theorem quoteInduction {q : Char} {motive : List Char → Prop} (whole : ∀ text, q ∉ text → motive text)
    (cut : ∀ before after, q ∉ before → motive after → motive (before ++ q :: after)) :
    ∀ text, motive text := by
  intro text
  induction size : text.length using Nat.strong_induction_on generalizing text with
  | _ n ih =>
    have kind {cs : List Char} (others : ∀ c ∈ cs, (c == q) = false) : q ∉ cs := fun h => by
      simpa using others q h
    rcases exists_first (· == q) text with others | ⟨before, c, after, rfl, others, same⟩
    · exact whole text (kind others)
    · obtain rfl := eq_of_beq same
      rw [List.length_append, List.length_cons] at size
      exact cut before after (kind others) (ih after.length (by omega) after rfl)

/-- A text up to a quote, the quote twice, and what stands behind it. -/
theorem doubleChar_cut {q : Char} {before : List Char} (h : q ∉ before) (after : List Char) :
    doubleChar q (before ++ q :: after) = before ++ q :: q :: doubleChar q after := by
  rw [doubleChar, List.flatMap_append]
  exact congrArg₂ (· ++ ·) (doubleChar_eq_self h) (doubleChar_cons_self q after)

namespace DatePattern

variable {items : List PatternItem} {finest : Option (Nat × Period)} {cs text before after : List Char}
  {literal : String}

/-! ## The parts between the quotes -/

/-- What a pattern writes in the place of a text that it has in quotes, with the quotes within doubled:
what each of the parts between these quotes writes. -/
def quotedParts (text : List Char) : List Char := (text.splitOn '\x27').flatMap quotedText

theorem quotedParts_whole (h : '\x27' ∉ text) : quotedParts text = quotedText text := by
  rw [quotedParts, List.splitOn_eq_singleton h, List.flatMap_singleton]

theorem quotedParts_cut (h : '\x27' ∉ before) (after : List Char) :
    quotedParts (before ++ '\x27' :: after) = quotedText before ++ quotedParts after := by
  rw [quotedParts, List.splitOn_append_cons_self_of_not_mem h, List.flatMap_cons]
  rfl

/-- Doubled, a quote ends one text in quotes and begins the next. -/
theorem ReadAs.doubled (h : ReadAs cs items finest) (text : List Char) :
    ReadAs ('\x27' :: (doubleChar '\x27' text ++ '\x27' :: cs)) ((quotedParts text).map .text ++ items)
      finest := by
  induction text using quoteInduction (q := '\x27') with
  | whole text quotes =>
    rw [doubleChar_eq_self quotes, quotedParts_whole quotes]
    exact h.between quotes
  | cut before after quotes ih =>
    have read := ih.between quotes
    rw [← List.append_assoc, ← List.map_append, ← quotedParts_cut quotes] at read
    rwa [doubleChar_cut quotes, List.append_assoc, List.cons_append, List.cons_append]

/-- If a text does not end with a quote, what stands behind a quote in it is not empty and does not
either. -/
theorem behind_quote (last : (before ++ '\x27' :: after).getLast? ≠ some '\x27') :
    after ≠ [] ∧ after.getLast? ≠ some '\x27' := by
  rcases after.eq_nil_or_concat with rfl | ⟨front, c, rfl⟩
  · simp at last
  · rw [List.concat_eq_append, ← List.cons_append, ← List.append_assoc, List.getLast?_concat] at last
    rw [List.concat_eq_append, List.getLast?_concat]
    exact ⟨by simp, last⟩

/-- What is written for the parts is no longer than the text, as a text that does not end with a quote
has one behind every part that it could be longer by. -/
theorem length_quotedParts_le (filled : text ≠ []) (last : text.getLast? ≠ some '\x27') :
    (quotedParts text).length ≤ text.length := by
  induction text using quoteInduction (q := '\x27') with
  | whole text quotes =>
    rw [quotedParts_whole quotes, quotedText, if_neg (by simpa using filled)]
  | cut before after quotes ih =>
    obtain ⟨behind, ends⟩ := behind_quote last
    have later := ih behind ends
    have one : (quotedText before).length ≤ before.length + 1 := by
      unfold quotedText
      split <;> simp
    rw [quotedParts_cut quotes, List.length_append, List.length_append, List.length_cons]
    omega

/-- A text that neither begins nor ends with a quote is written as it is just if it has none: the first
quote within it is lost, and no part writes more than itself and the quote behind it. -/
theorem quotedParts_eq_self_iff (filled : text ≠ []) (first : text.head? ≠ some '\x27')
    (last : text.getLast? ≠ some '\x27') : quotedParts text = text ↔ '\x27' ∉ text := by
  constructor
  · intro same quote
    obtain ⟨before, after, rfl, quotes⟩ := List.eq_append_cons_of_mem quote
    have front : before ≠ [] := by
      rintro rfl
      exact first rfl
    obtain ⟨behind, ends⟩ := behind_quote last
    have later := length_quotedParts_le behind ends
    rw [quotedParts_cut quotes, quotedText, if_neg (by simpa using front)] at same
    have lengths := congrArg List.length (List.append_cancel_left same)
    rw [List.length_cons] at lengths
    omega
  · intro quotes
    rw [quotedParts_whole quotes, quotedText, if_neg (by simpa using filled)]

/-! ## What is written -/

/-- Fixed text in front of a pattern is written in front of what the pattern writes. -/
theorem format_text (cs : List Char) (items : List PatternItem) (resolution : Period) (millis : Int) :
    format ⟨cs.map .text ++ items, resolution⟩ millis =
      (format ⟨items, resolution⟩ millis).map (String.ofList cs ++ ·) := by
  have shown (m : Moment) : render ⟨cs.map .text ++ items, resolution⟩ m =
      String.ofList cs ++ render ⟨items, resolution⟩ m := by
    have letters (cs : List Char) : written (cs.map .text) m = cs := by
      have one (c : Char) : (PatternItem.render m (.text c)).toList = [c] := by
        simp [PatternItem.render]
      simp only [written, List.flatMap_map, one, List.flatMap_singleton']
    rw [← String.toList_inj, String.toList_append, toList_render, toList_render, String.toList_ofList,
      written, List.flatMap_append]
    exact congrArg (· ++ _) (letters cs)
  unfold format
  dsimp only
  cases resolution.firstBucketAtOrAfter millis with
  | error e => rfl
  | ok rounded =>
    simp only [bind, Except.bind]
    cases moment? rounded with
    | none => rfl
    | some m => exact congrArg Except.ok (shown m)

/-- The year alone. -/
def year : DatePattern := ⟨[.year], .unit 0⟩

theorem readAs_year : ReadAs "yyyy".toList [.year] (some (0, .unit 0)) := by
  have fields : ReadAs (fieldsFrom 0 [[]]) (fieldItemsFrom 0 [[]]) (finestFrom 0 [[]]) :=
    readAs_fieldsFrom (by decide) (by simp)
  have source : fieldsFrom 0 [[]] = "yyyy".toList := by decide +kernel
  rwa [source] at fields

/-- **Text in quotes in front of a year.** A text that is not empty and neither begins nor ends with a
quote, put in quotes with its own quotes doubled, is accepted in front of the letters of a year, and
what the pattern then writes for any instant is what the parts between the quotes of the text write and
the year. It writes the text itself, for every instant whose year can be written, if and only if there
is no quote in the text. -/
theorem parse_stringLiteral_year (filled : literal ≠ "") (first : literal.toList.head? ≠ some '\x27')
    (last : literal.toList.getLast? ≠ some '\x27') :
    parse "yyyy" = .ok year ∧ ∃ p, parse (TimeFormat.stringLiteral literal ++ "yyyy") = .ok p ∧
      (∀ millis, p.format millis =
        (year.format millis).map (String.ofList (quotedParts literal.toList) ++ ·)) ∧
      ((∀ millis text, year.format millis = .ok text → p.format millis = .ok (literal ++ text)) ↔
        '\x27' ∉ literal.toList) := by
  have pattern : (TimeFormat.stringLiteral literal ++ "yyyy").toList =
      '\x27' :: (doubleChar '\x27' literal.toList ++ '\x27' :: "yyyy".toList) := by
    rw [String.toList_append, TimeFormat.stringLiteral, String.toList_ofList, List.cons_append,
      List.append_assoc, List.singleton_append]
  have accepted := readAs_year.doubled literal.toList
  rw [← pattern] at accepted
  refine ⟨readAs_year.parse, _, accepted.parse, format_text _ _ _, ?_⟩
  rw [← quotedParts_eq_self_iff (by simpa using filled) first last]
  constructor
  · intro verbatim
    have now : year.format 0 = .ok "1970" := Outcome.ok_of_toOption (by decide +kernel)
    have here := verbatim 0 _ now
    rw [format_text] at here
    obtain ⟨text, same, put⟩ := map_ok_iff.mp here
    obtain rfl : "1970" = text := Except.ok.inj (now.symm.trans same)
    have shown := congrArg String.toList put
    rwa [String.toList_append, String.toList_append, List.append_left_inj, String.toList_ofList] at shown
  · intro same millis text written
    rw [format_text, show format ⟨[.year], .unit 0⟩ millis = .ok text from written, same, String.ofList_toList]
    rfl

/-- A quote and a percent sign in the text: the quote is lost, the percent sign is not. -/
theorem parse_stringLiteral_year_clock :
    ("o'clock 100%d" ≠ "" ∧ "o'clock 100%d".toList.head? ≠ some '\x27' ∧
      "o'clock 100%d".toList.getLast? ≠ some '\x27') ∧
    ∃ p, parse "'o''clock 100%d'yyyy" = .ok p ∧ p.format 0 = .ok "oclock 100%d1970" ∧
      ¬ ∀ millis text, year.format millis = .ok text → p.format millis = .ok ("o'clock 100%d" ++ text) := by
  have filled : "o'clock 100%d" ≠ "" := by decide
  have first : "o'clock 100%d".toList.head? ≠ some '\x27' := by decide
  have last : "o'clock 100%d".toList.getLast? ≠ some '\x27' := by decide
  have pattern : TimeFormat.stringLiteral "o'clock 100%d" ++ "yyyy" = "'o''clock 100%d'yyyy" := by
    decide +kernel
  have now : year.format 0 = .ok "1970" := Outcome.ok_of_toOption (by decide +kernel)
  have shown : String.ofList (quotedParts "o'clock 100%d".toList) ++ "1970" = "oclock 100%d1970" := by
    decide +kernel
  obtain ⟨-, p, accepted, writes, verbatim⟩ := parse_stringLiteral_year filled first last
  rw [pattern] at accepted
  refine ⟨⟨filled, first, last⟩, p, accepted, ?_, fun h => verbatim.mp h (by decide)⟩
  rw [writes 0, now, ← shown]
  rfl

end DatePattern
end DetectionPlan
