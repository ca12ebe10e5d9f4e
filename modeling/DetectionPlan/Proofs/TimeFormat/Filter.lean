/-
Range filters on columns of dates that are written from the year down, with fixed text around the
numbers. Such a pattern is read as the numbers and the text (`parse_yearFirst`) and keeps the order of
time, so the two texts of a filter, each rounded up to the finest part, let through what lies between
the instants (`dateFilter_iff`).
-/
import DetectionPlan.Proofs.Sql.Literal
import DetectionPlan.Proofs.TimeFormat.Bound

namespace DetectionPlan

open Outcome (bind_ok_iff)
open Period (IsFourDigit)

/-- Fixed text in a date pattern: a character that stands for itself, or text between quotes. -/
inductive LiteralPart where
  | plain (c : Char)
  | quoted (text : List Char)
deriving DecidableEq, Repr

namespace LiteralPart

/-- A letter stands for itself only between quotes, and a quote not even there. -/
def IsFixed : LiteralPart → Prop
  | plain c => c.isAlpha = false ∧ c ≠ '\x27'
  | quoted text => text ≠ [] ∧ '\x27' ∉ text

instance : (part : LiteralPart) → Decidable part.IsFixed
  | plain _ => inferInstanceAs (Decidable (_ ∧ _))
  | quoted _ => inferInstanceAs (Decidable (_ ∧ _))

def source : LiteralPart → List Char
  | plain c => [c]
  | quoted text => '\x27' :: (text ++ ['\x27'])

def items : LiteralPart → List PatternItem
  | plain c => [.text c]
  | quoted text => text.map .text

end LiteralPart

namespace DatePattern

variable {items : List PatternItem} {finest : Option (Nat × Period)} {cs : List Char} {rank : Nat}
  {literals before : List LiteralPart} {after : List (List LiteralPart)}

/-! ## The pattern -/

/-- The letters for the parts of a date, from the year down. -/
def letter : Nat → Char
  | 0 => 'y'
  | 1 => 'M'
  | 2 => 'd'
  | 3 => 'H'
  | 4 => 'm'
  | 5 => 's'
  | _ => 'S'

/-- How many letters stand for a part that is written in full. -/
def width : Nat → Nat
  | 0 => 4
  | 6 => 3
  | _ => 2

def fieldItem : Nat → PatternItem
  | 0 => .year
  | 1 => .number .month true
  | 2 => .number .day true
  | 3 => .number .hour true
  | 4 => .number .minute true
  | 5 => .number .second true
  | _ => .millis

/-- The parts of a date from one on, in order, each followed by fixed text. -/
def fieldsFrom (rank : Nat) : List (List LiteralPart) → List Char
  | [] => []
  | literals :: after =>
    List.replicate (width rank) (letter rank) ++ (literals.flatMap (·.source) ++ fieldsFrom (rank + 1) after)

/-- The pattern of a date that is written from the year down, with as many parts as there are texts
behind them. -/
def yearFirst (before : List LiteralPart) (after : List (List LiteralPart)) : String :=
  String.ofList (before.flatMap (·.source) ++ fieldsFrom 0 after)

def fieldItemsFrom (rank : Nat) : List (List LiteralPart) → List PatternItem
  | [] => []
  | literals :: after => fieldItem rank :: (literals.flatMap (·.items) ++ fieldItemsFrom (rank + 1) after)

/-! ## How it is read -/

/-- The reader takes a text, with as many steps as it has characters or more, for items and a finest
part. -/
def ReadAs (cs : List Char) (items : List PatternItem) (finest : Option (Nat × Period)) : Prop :=
  ∀ steps, cs.length ≤ steps → readIn steps cs = .ok (items, finest)

theorem ReadAs.nil : ReadAs [] [] none := by
  intro steps _
  cases steps <;> rfl

theorem ReadAs.between (h : ReadAs cs items finest) {text : List Char} (quotes : '\x27' ∉ text) :
    ReadAs ('\x27' :: (text ++ '\x27' :: cs)) ((quotedText text).map .text ++ items) finest := by
  intro steps enough
  simp only [List.length_cons, List.length_append] at enough
  obtain ⟨fewer, rfl⟩ : ∃ fewer, steps = fewer + 1 := ⟨steps - 1, by omega⟩
  exact readIn_between quotes (h fewer (by omega))

theorem ReadAs.part (h : ReadAs cs items finest) {part : LiteralPart} (fixed : part.IsFixed) :
    ReadAs (part.source ++ cs) (part.items ++ items) finest := by
  cases part with
  | plain c =>
    intro steps enough
    cases steps with
    | zero => cases enough
    | succ steps => exact readIn_plain fixed.1 fixed.2 (h steps (Nat.le_of_succ_le_succ enough))
  | quoted text =>
    have written : quotedText text = text := if_neg (by simpa using fixed.1)
    have read := h.between fixed.2
    rw [written] at read
    simpa [LiteralPart.source, LiteralPart.items] using read

theorem ReadAs.literal (h : ReadAs cs items finest) (fixed : ∀ part ∈ literals, part.IsFixed) :
    ReadAs (literals.flatMap (·.source) ++ cs) (literals.flatMap (·.items) ++ items) finest := by
  induction literals with
  | nil => exact h
  | cons part literals ih =>
    rw [List.flatMap_cons, List.flatMap_cons, List.append_assoc, List.append_assoc]
    exact (ih fun other ho => fixed other (List.mem_cons_of_mem _ ho)).part (fixed part List.mem_cons_self)

theorem ReadAs.field (h : ReadAs cs items finest) (small : rank < 7) (ends : cs.head? ≠ some (letter rank)) :
    ReadAs (List.replicate (width rank) (letter rank) ++ cs) (fieldItem rank :: items)
      (finer (some (rank, .unit rank)) finest) := by
  intro steps enough
  rw [List.length_append, List.length_replicate] at enough
  have positive : 0 < width rank := by
    unfold width
    split <;> decide
  obtain ⟨fewer, rfl⟩ : ∃ fewer, steps = fewer + 1 := ⟨steps - 1, by omega⟩
  have later := h fewer (by omega)
  match rank, small with
  | 0, _ => exact readIn_run rfl rfl ends later
  | 1, _ => exact readIn_run rfl rfl ends later
  | 2, _ => exact readIn_run rfl rfl ends later
  | 3, _ => exact readIn_run rfl rfl ends later
  | 4, _ => exact readIn_run rfl rfl ends later
  | 5, _ => exact readIn_run rfl rfl ends later
  | 6, _ => exact readIn_run rfl rfl ends later

theorem letter_succ_ne (small : rank < 6) : letter (rank + 1) ≠ letter rank := by
  revert rank
  decide

/-- What stands behind a part does not begin with the letter of the part. -/
theorem head?_behind (few : rank + 1 + after.length ≤ 7) (fixed : ∀ part ∈ literals, part.IsFixed) :
    (literals.flatMap (·.source) ++ fieldsFrom (rank + 1) after).head? ≠ some (letter rank) := by
  have alpha : (letter rank).isAlpha := by
    unfold letter
    split <;> decide
  cases literals with
  | nil =>
    cases after with
    | nil => exact nofun
    | cons more after =>
      rw [List.length_cons] at few
      have positive : width (rank + 1) ≠ 0 := by
        unfold width
        split <;> decide
      obtain ⟨fewer, count⟩ := Nat.exists_eq_succ_of_ne_zero positive
      intro same
      simp only [fieldsFrom, count, List.replicate_succ] at same
      exact letter_succ_ne (by omega) (Option.some.inj same)
  | cons part literals =>
    have first := fixed part List.mem_cons_self
    intro same
    cases part with
    | plain c =>
      obtain rfl := Option.some.inj same
      exact absurd alpha (Bool.eq_false_iff.mp first.1)
    | quoted text =>
      rw [← Option.some.inj same] at alpha
      cases alpha

/-- The finest of the parts from one on. -/
def finestFrom (rank : Nat) : List (List LiteralPart) → Option (Nat × Period)
  | [] => none
  | _ :: after => some (rank + after.length, .unit (rank + after.length))

theorem readAs_fieldsFrom (few : rank + after.length ≤ 7)
    (fixed : ∀ literals ∈ after, ∀ part ∈ literals, part.IsFixed) :
    ReadAs (fieldsFrom rank after) (fieldItemsFrom rank after) (finestFrom rank after) := by
  induction after generalizing rank with
  | nil => exact .nil
  | cons literals after ih =>
    rw [List.length_cons] at few
    have here := fixed literals List.mem_cons_self
    have later := ih (show rank + 1 + after.length ≤ 7 by omega)
      (fun other ho => fixed other (List.mem_cons_of_mem _ ho))
    have read := (later.literal here).field (show rank < 7 by omega) (head?_behind (by omega) here)
    have finest : finer (some (rank, .unit rank)) (finestFrom (rank + 1) after) =
        finestFrom rank (literals :: after) := by
      cases after with
      | nil => rfl
      | cons more after =>
        have deeper : rank + 1 + after.length = rank + (after.length + 1) := by omega
        simp only [finestFrom, finer, deeper, List.length_cons]
        exact if_pos (by omega)
    rwa [finest] at read

/-- A pattern that writes some part of a date is accepted, with the finest part as its resolution. -/
theorem ReadAs.parse {pattern : String} {resolution : Period}
    (h : ReadAs pattern.toList items (some (rank, resolution))) :
    parse pattern = .ok ⟨items, resolution⟩ := by
  unfold DatePattern.parse
  dsimp only
  rw [h pattern.length (Nat.le_of_eq String.length_toList)]

/-- A pattern that writes a date from the year down is accepted. -/
theorem parse_yearFirst (some : after ≠ []) (few : after.length ≤ 7)
    (fixed : ∀ part ∈ before, part.IsFixed) (fixed' : ∀ literals ∈ after, ∀ part ∈ literals, part.IsFixed) :
    parse (yearFirst before after) =
      .ok ⟨before.flatMap (·.items) ++ fieldItemsFrom 0 after, .unit (after.length - 1)⟩ := by
  have read := (readAs_fieldsFrom (show 0 + after.length ≤ 7 by omega) fixed').literal fixed
  obtain ⟨last, more, rfl⟩ := List.exists_cons_of_ne_nil some
  simp only [finestFrom, Nat.zero_add] at read
  exact ReadAs.parse (by rwa [yearFirst, String.toList_ofList])

/-! ## What it writes -/

theorem keepsOrderFrom_literal (known finest : Nat) (literals : List LiteralPart) (items : List PatternItem) :
    keepsOrderFrom finest known (literals.flatMap (·.items) ++ items) = keepsOrderFrom finest known items := by
  have text (cs : List Char) (items : List PatternItem) :
      keepsOrderFrom finest known (cs.map .text ++ items) = keepsOrderFrom finest known items := by
    induction cs with
    | nil => rfl
    | cons c cs ih =>
      have fixed : settled finest known (.text c) = true :=
        Bool.or_eq_true_iff.mpr (.inl (decide_eq_true (Nat.zero_le known)))
      rw [List.map_cons, List.cons_append, keepsOrderFrom, if_neg nofun, fixed, Bool.true_and, ih]
  induction literals with
  | nil => rfl
  | cons part literals ih =>
    rw [List.flatMap_cons, List.append_assoc]
    cases part with
    | plain c => exact (text [c] _).trans ih
    | quoted cs => exact (text cs _).trans ih

/-- Each part is the next one in full. -/
theorem fieldItem_next (small : rank < 7) :
    ((fieldItem rank).isFull && (fieldItem rank).rank? == some rank) = true := by
  revert rank
  decide

theorem keepsOrderFrom_fields (few : rank + after.length ≤ 7) (finest : Nat) :
    keepsOrderFrom finest rank (fieldItemsFrom rank after) = decide (finest < rank + after.length) := by
  induction after generalizing rank with
  | nil => rfl
  | cons literals after ih =>
    rw [List.length_cons] at few ⊢
    rw [fieldItemsFrom, keepsOrderFrom, if_pos (fieldItem_next (by omega)), keepsOrderFrom_literal,
      ih (by omega), Nat.add_assoc, Nat.add_comm 1]

end DatePattern

/-! ## Range filters -/

open DatePattern (yearFirst parse_yearFirst keepsOrderFrom_literal keepsOrderFrom_fields)

/-- Read as a token of a query, a text between quotes is the text. -/
theorem scan_stringLiteral {s : Sql.ParserSettings} (plain : s.PlainStrings) (text : String) :
    Sql.Lexer.scan s (TimeFormat.stringLiteral text) = .ok [.string .single text] := by
  have ends : ([] : List Char).head? ≠ some '\x27' := nofun
  rw [Sql.Lexer.scan_eq, TimeFormat.stringLiteral, String.toList_ofList]
  exact (Sql.Lexer.tokensOf_doubled plain text ends).mpr rfl

/-- **Range filters on dates written from the year down.** A pattern of the year and any number of
the parts below it, each in full, with fixed text around and between them, is accepted. Rounded up to
the finest part, both bounds of a filter are written as literals, and of the texts that the pattern
writes for the instants it tells exactly those are not before the first and before the second whose
instants are not before the first bound and before the second. -/
theorem dateFilter_iff {before : List LiteralPart} {after : List (List LiteralPart)} (some : after ≠ [])
    (few : after.length ≤ 7) (fixed : ∀ part ∈ before, part.IsFixed)
    (fixed' : ∀ literals ∈ after, ∀ part ∈ literals, part.IsFixed) :
    ∃ p, DatePattern.parse (yearFirst before after) = .ok p ∧ p.resolution = .unit (after.length - 1) ∧
      ∀ lo hi low high, p.IsRoundedUp lo low → p.IsRoundedUp hi high →
        ∃ lowText highText,
          (TimeFormat.date (yearFirst before after)).filterBound lo = .ok (TimeFormat.stringLiteral lowText) ∧
          (TimeFormat.date (yearFirst before after)).filterBound hi = .ok (TimeFormat.stringLiteral highText) ∧
          (∀ s : Sql.ParserSettings, s.PlainStrings →
            Sql.Lexer.scan s (TimeFormat.stringLiteral lowText) = .ok [.string .single lowText] ∧
              Sql.Lexer.scan s (TimeFormat.stringLiteral highText) = .ok [.string .single highText]) ∧
          ∀ t, p.Tells t → ∃ text, p.format t = .ok text ∧
            (lowText ≤ text ∧ text < highText ↔ lo ≤ t ∧ t < hi) := by
  have accepted := parse_yearFirst some few fixed fixed'
  have small : after.length - 1 < 7 := by omega
  have filled := List.length_pos_of_ne_nil some
  refine ⟨_, accepted, rfl, fun lo hi low high hl hh => ?_⟩
  have keeps : DatePattern.keepsOrderFrom (after.length - 1) 0
      (before.flatMap (·.items) ++ DatePattern.fieldItemsFrom 0 after) = true := by
    rw [keepsOrderFrom_literal, keepsOrderFrom_fields (by omega)]
    exact decide_eq_true (by omega)
  have bound {millis first : Int} (h : DatePattern.IsRoundedUp _ millis first) :
      (TimeFormat.date (yearFirst before after)).filterBound millis =
        .ok (TimeFormat.stringLiteral (DatePattern.render _ (.ofMillis first))) :=
    bind_ok_iff.mpr ⟨_, accepted, bind_ok_iff.mpr ⟨_, DatePattern.format_of_isRoundedUp rfl h, rfl⟩⟩
  refine ⟨_, _, bound hl, bound hh,
    fun s plain => ⟨scan_stringLiteral plain _, scan_stringLiteral plain _⟩, fun t ht => ?_⟩
  refine ⟨_, DatePattern.format_of_tells ht, ?_⟩
  rw [← not_lt, DatePattern.render_lt_iff small rfl keeps ht hl.tells,
    DatePattern.render_lt_iff small rfl keeps ht hh.tells, not_lt, hl.le_iff ht, ← not_le, hh.le_iff ht, not_le]

/-- The fixed text behind the parts of an hourly pattern. -/
def hourly : List (List LiteralPart) := [[.plain '-'], [.plain '-'], [.quoted ['T']], []]

/-- From a millisecond past midnight of 2024-01-01, which is rounded up to 01:00, up to the next day. -/
theorem dateFilter_iff_hourly :
    (hourly ≠ [] ∧ hourly.length ≤ 7 ∧ (∀ part ∈ ([] : List LiteralPart), part.IsFixed) ∧
      (∀ literals ∈ hourly, ∀ part ∈ literals, part.IsFixed) ∧ yearFirst [] hourly = "yyyy-MM-dd'T'HH") ∧
    ∃ p, DatePattern.parse "yyyy-MM-dd'T'HH" = .ok p ∧
      p.IsRoundedUp 1704067200001 1704070800000 ∧ p.IsRoundedUp 1704153600000 1704153600000 ∧
      ∃ lowText highText,
        (TimeFormat.date "yyyy-MM-dd'T'HH").filterBound 1704067200001 = .ok (TimeFormat.stringLiteral lowText) ∧
        (TimeFormat.date "yyyy-MM-dd'T'HH").filterBound 1704153600000 = .ok (TimeFormat.stringLiteral highText) ∧
        ∀ t, p.Tells t → ∃ text, p.format t = .ok text ∧
          (lowText ≤ text ∧ text < highText ↔ 1704067200001 ≤ t ∧ t < 1704153600000) := by
  have some : hourly ≠ [] := nofun
  have few : hourly.length ≤ 7 := by decide
  have fixed : ∀ part ∈ ([] : List LiteralPart), part.IsFixed := nofun
  have fixed' : ∀ literals ∈ hourly, ∀ part ∈ literals, part.IsFixed := by decide
  have pattern : yearFirst [] hourly = "yyyy-MM-dd'T'HH" := by decide +kernel
  obtain ⟨p, accepted, unit, between⟩ := dateFilter_iff some few fixed fixed'
  have rounded (millis first : Int) (found : Period.firstBucketAtOrAfter { hours := 1 } millis = .ok first)
      (year : IsFourDigit (Moment.ofMillis first).date.year) : p.IsRoundedUp millis first := by
    have least := Period.isLeast_firstBucketAtOrAfter (by decide) (.inl rfl) found
    exact ⟨by rw [unit]; exact least, year⟩
  have low := rounded 1704067200001 1704070800000
    (Outcome.ok_of_toOption (by decide +kernel)) (by decide +kernel)
  have high := rounded 1704153600000 1704153600000
    (Outcome.ok_of_toOption (by decide +kernel)) (by decide +kernel)
  obtain ⟨lowText, highText, lowBound, highBound, -, told⟩ := between _ _ _ _ low high
  rw [pattern] at accepted lowBound highBound
  exact ⟨⟨some, few, fixed, fixed', pattern⟩, p, accepted, low, high, lowText, highText, lowBound, highBound, told⟩

end DetectionPlan
