/-
What the texts that placeholders become mention. The expressions of time that use arithmetic
alone put nothing between the texts of columns but blanks, parentheses, numbers and dates, so such
a text mentions a name only when the column does (`mentions_of_expand`).
-/
import DetectionPlan.Expansion.Builtin
import DetectionPlan.Proofs.Sql.Mention
import DetectionPlan.Proofs.Sql.Scanning
import DetectionPlan.Proofs.TimeExpression.Group
import Mathlib.Data.List.GetD

namespace DetectionPlan

open Outcome (bind_ok_iff)

/-! ## Dates without low lines -/

theorem low_line_not_mem_toString (n : Nat) : '_' ∉ (toString n).toList := fun mem =>
  absurd (isDigit_of_mem_toString mem) (by decide)

theorem low_line_not_mem_toString_int (n : Int) : '_' ∉ (toString n).toList := by
  rw [Sql.Lexer.toString_int]
  split <;> simp

theorem low_line_not_mem_padZeros (width n : Nat) : '_' ∉ (padZeros width n).toList := by
  rw [padZeros_toList, List.mem_append]
  rintro (zero | digit)
  · cases List.eq_of_mem_replicate zero
  · exact low_line_not_mem_toString n digit

namespace PatternItem

theorem low_line_not_mem_nameText {names : List String} (known : names = monthNames ∨ names = weekdayNames)
    (i : Nat) (full : Bool) : '_' ∉ (nameText names i full).toList := by
  have all : ∀ name ∈ "" :: (monthNames ++ weekdayNames),
      '_' ∉ name.toList ∧ '_' ∉ (name.take 3).toString.toList := by decide +kernel
  have mem : names.getD i "" ∈ "" :: (monthNames ++ weekdayNames) := by
    rcases Nat.lt_or_ge i names.length with inside | outside
    · rw [List.getD_eq_getElem _ _ inside]
      have := List.getElem_mem inside
      rcases known with rfl | rfl <;> simp [this]
    · rw [List.getD_eq_default _ _ outside]
      exact List.mem_cons_self
  unfold nameText
  split
  · exact (all _ mem).1
  · exact (all _ mem).2

/-- Only literal text puts a low line into a date. -/
theorem low_line_not_mem_render (m : Moment) {item : PatternItem} (h : item ≠ .text '_') :
    '_' ∉ (item.render m).toList := by
  cases item with
  | text c =>
    have : '_' ≠ c := fun e => h (by rw [e])
    simpa [render] using this
  | year =>
    simp only [render, yearText]
    split
    · exact low_line_not_mem_padZeros _ _
    · split <;> simp [low_line_not_mem_padZeros]
  | shortYear | millis => exact low_line_not_mem_padZeros _ _
  | number part padded =>
    simp only [render]
    split
    · exact low_line_not_mem_padZeros _ _
    · exact low_line_not_mem_toString _
  | monthName full => exact low_line_not_mem_nameText (.inl rfl) _ full
  | weekdayName full => exact low_line_not_mem_nameText (.inr rfl) _ full
  | halfDay => simp only [render]; split <;> decide
  | offset colon => cases colon <;> simp [render]

end PatternItem

namespace DatePattern

theorem field?_ne_text (letter : Char) (count : Nat) (c : Char) : field? letter count ≠ some (.text c) := by
  unfold field?
  grind

/-- The literal text of a pattern stands in it, but for a quote that is written for two. -/
theorem text_mem_of_readIn {c : Char} (plain : c ≠ '\x27') (n : Nat) {cs : List Char} {items : List PatternItem}
    {finest : Option (Nat × Period)} (h : readIn n cs = .ok (items, finest)) (mem : .text c ∈ items) : c ∈ cs := by
  induction n generalizing cs items finest with
  | zero => cases cs <;> cases h <;> cases mem
  | succ n ih =>
    match cs with
    | [] =>
      cases h
      cases mem
    | d :: rest =>
      rw [readIn] at h
      split at h
      next quote =>
        simp only at h
        split at h
        · cases h
        next left split =>
          obtain ⟨⟨more, finest'⟩, read, made⟩ := bind_ok_iff.mp h
          obtain ⟨rfl, -⟩ := Prod.mk.inj (Except.ok.inj made)
          rcases List.mem_append.mp mem with shown | later
          · obtain ⟨d', mem', same⟩ := List.mem_map.mp shown
            obtain rfl := PatternItem.text.inj same
            split at mem'
            · exact absurd (List.mem_singleton.mp mem') plain
            · exact List.mem_cons_of_mem _ ((List.takeWhile_sublist _).subset mem')
          · have inside : left <:+ rest := (List.suffix_cons _ left).trans (split ▸ List.dropWhile_suffix _)
            exact List.mem_cons_of_mem _ (inside.subset (ih read later))
      split at h
      · simp only at h
        split at h
        · cases h
        next field found =>
          obtain ⟨⟨more, finest'⟩, read, made⟩ := bind_ok_iff.mp h
          obtain ⟨rfl, -⟩ := Prod.mk.inj (Except.ok.inj made)
          rcases List.mem_cons.mp mem with rfl | later
          · exact absurd found (field?_ne_text d _ c)
          · exact List.mem_cons_of_mem _ ((List.dropWhile_suffix _).subset (ih read later))
      · obtain ⟨⟨more, finest'⟩, read, made⟩ := bind_ok_iff.mp h
        obtain ⟨rfl, -⟩ := Prod.mk.inj (Except.ok.inj made)
        rcases List.mem_cons.mp mem with same | later
        · rw [PatternItem.text.inj same]
          exact List.mem_cons_self
        · exact List.mem_cons_of_mem _ (ih read later)

theorem low_line_not_mem_format {pattern : String} {p : DatePattern} {millis : Int} {text : String}
    (plain : '_' ∉ pattern.toList) (parsed : parse pattern = .ok p) (written : p.format millis = .ok text) :
    '_' ∉ text.toList := by
  have items : ∀ item ∈ p.items, item ≠ .text '_' := by
    rintro item mem rfl
    unfold parse at parsed
    simp only at parsed
    split at parsed
    · cases parsed
    · cases parsed
    next read =>
      obtain rfl := Except.ok.inj parsed
      exact plain (text_mem_of_readIn (by decide) _ read mem)
  obtain ⟨rounded, -, written⟩ := bind_ok_iff.mp written
  split at written
  next m _ =>
    obtain rfl := Except.ok.inj written
    rw [render, String.toList_join, List.mem_flatMap]
    rintro ⟨shown, mem, low⟩
    obtain ⟨item, given, rfl⟩ := List.mem_map.mp mem
    exact PatternItem.low_line_not_mem_render m (items item given) low
  · cases written

end DatePattern

namespace TimeFormat

/-- A count of units, or a date by a pattern without low lines. -/
def IsPlain : TimeFormat → Prop
  | epoch _ => True
  | date pattern => '_' ∉ pattern.toList

theorem low_line_not_mem_filterBound {f : TimeFormat} {millis : Int} {bound : String} (plain : f.IsPlain)
    (written : f.filterBound millis = .ok bound) : '_' ∉ bound.toList := by
  cases f with
  | epoch unit =>
    obtain rfl := Except.ok.inj written
    exact low_line_not_mem_toString_int _
  | date pattern =>
    obtain ⟨p, parsed, written⟩ := bind_ok_iff.mp written
    obtain ⟨text, formatted, made⟩ := bind_ok_iff.mp written
    obtain rfl := Except.ok.inj made
    have doubled (cs : List Char) (h : '_' ∉ cs) : '_' ∉ doubleChar '\x27' cs := by
      simp only [doubleChar, List.mem_flatMap, not_exists, not_and]
      intro c mem low
      split at low
      · simp at low
      · exact h (List.mem_singleton.mp low ▸ mem)
    simpa [stringLiteral] using doubled _ (DatePattern.low_line_not_mem_format plain parsed formatted)

/-- A format whose values, as they stand in a condition, do not mention a name. -/
def Avoids (f : TimeFormat) (name : String) : Prop :=
  ∀ millis bound, f.filterBound millis = .ok bound → ¬ Sql.Mentions name bound.toList

theorem IsPlain.avoids {f : TimeFormat} (plain : f.IsPlain) {name : String}
    (low : '_' ∈ (asciiLower name).toList) : f.Avoids name :=
  fun _ _ written => Sql.not_mentions_of_low_line low (low_line_not_mem_filterBound plain written)

end TimeFormat

/-! ## Expressions of time -/

namespace TimeExpressions

open Sql (IsLettered Mentions mentions_append_cons not_mentions_of_low_line)

variable {name column text : String} {format : TimeFormat} (lettered : IsLettered name)
  (low : '_' ∈ (asciiLower name).toList)

include lettered low

theorem mentions_of_timeRange {start stop : Int} (avoids : format.Avoids name)
    (made : timeRange column start stop format = .ok text) (h : Mentions name text.toList) :
    Mentions name column.toList := by
  obtain ⟨first, hf, made⟩ := bind_ok_iff.mp made
  obtain ⟨last, hl, made⟩ := bind_ok_iff.mp made
  obtain rfl := Except.ok.inj made
  have parts {cs ds : List Char} : Mentions name (cs ++ ' ' :: ds) → Mentions name cs ∨ Mentions name ds :=
    mentions_append_cons lettered (by decide) rfl
  have pieces : (column ++ " >= " ++ first ++ " AND " ++ column ++ " < " ++ last).toList =
      column.toList ++ ' ' :: (['>', '='] ++ ' ' :: (first.toList ++ ' ' :: (['A', 'N', 'D'] ++
        ' ' :: (column.toList ++ ' ' :: (['<'] ++ ' ' :: last.toList))))) := by
    simp
  rw [pieces] at h
  rcases parts h with h | h
  · exact h
  rcases parts h with h | h
  · exact absurd h (not_mentions_of_low_line low (by decide))
  rcases parts h with h | h
  · exact absurd h (avoids _ _ hf)
  rcases parts h with h | h
  · exact absurd h (not_mentions_of_low_line low (by decide))
  rcases parts h with h | h
  · exact h
  rcases parts h with h | h
  · exact absurd h (not_mentions_of_low_line low (by decide))
  · exact absurd h (avoids _ _ hl)

theorem mentions_of_millisText {unit : EpochUnit} (h : Mentions name (millisText column unit).toList) :
    Mentions name column.toList := by
  unfold millisText at h
  split at h
  · exact h
  have pieces : (column ++ " * " ++ toString unit.millis).toList =
      column.toList ++ ' ' :: '*' :: ' ' :: (toString unit.millis).toList := by
    simp
  rw [pieces] at h
  rcases mentions_append_cons lettered (by decide) rfl h with h | h
  · exact h
  · have digits := low_line_not_mem_toString_int unit.millis
    exact absurd h (not_mentions_of_low_line low (by simpa using digits))

theorem mentions_of_floorText {unit : EpochUnit} {length : Int}
    (h : Mentions name (floorText column unit length).toList) : Mentions name column.toList := by
  have digits := low_line_not_mem_toString_int length
  have pieces : (floorText column unit length).toList =
      ['F', 'L', 'O', 'O', 'R'] ++ '(' :: ((millisText column unit).toList ++
        ' ' :: ('/' :: ' ' :: (toString length).toList ++
          ')' :: ' ' :: '*' :: ' ' :: (toString length).toList)) := by
    simp [floorText]
  rw [pieces] at h
  rcases mentions_append_cons lettered (by decide) rfl h with h | h
  · exact absurd h (not_mentions_of_low_line low (by decide))
  rcases mentions_append_cons lettered (by decide) rfl h with h | h
  · exact mentions_of_millisText lettered low h
  · exact absurd h (not_mentions_of_low_line low (by simpa using digits))

theorem mentions_of_floorGroup {stored : String} {granularity : Period} {zone : Option String}
    (made : floorGroup column stored granularity zone = .ok text) (h : Mentions name text.toList) :
    Mentions name column.toList := by
  obtain ⟨unit, -, ⟨-, rfl⟩ | ⟨-, rfl⟩⟩ := floorGroup_cases made
  · exact mentions_of_millisText lettered low h
  · exact mentions_of_floorText lettered low h

end TimeExpressions

/-! ## Placeholders -/

/-- A request of a data source that uses arithmetic alone, in whose conditions no date mentions a
name. -/
structure RequestScope.Avoids (s : RequestScope) (name : String) : Prop where
  arithmetic : ∃ format : TimeFormat, s.expressions = .ansi format ∧ format.Avoids name
  declared : ∀ d ∈ s.dataset, ∀ text ∈ d.timeFormat, ∀ format, TimeFormat.parse text = .ok format → format.Avoids name

namespace Placeholder

open Sql (IsLettered Mentions)

variable {s : RequestScope} {name column : String}

theorem mentions_of_filterColumn (avoids : s.Avoids name) (lettered : IsLettered name)
    (low : '_' ∈ (asciiLower name).toList) (fromStart fromStop : Option String) :
    Keeps (fun _ => True) (fun text => Mentions name text.toList → Mentions name column.toList)
      (filterColumn s column fromStart fromStop) := by
  obtain ⟨format, ansi, avoidsName⟩ := avoids.arithmetic
  refine (Keeps.trivial _).bind fun _ _ => (Keeps.trivial _).bind fun _ _ => (Keeps.trivial _).bind fun bounds _ =>
    (Keeps.trivial _).bind fun _ _ => (Keeps.trivial _).bind fun _ _ => (Keeps.trivial _).bind fun _ _ => ?_
  rw [ansi]
  split
  next text declared =>
    refine (Keeps.lift fun f parsed => ?_).bind fun f (hf : f.Avoids name) => ?_
    · unfold RequestScope.timeFormatOf at declared
      split at declared
      · cases declared
      next d given =>
        split at declared
        · exact avoids.declared d given text declared f parsed
        · cases declared
    · exact Keeps.lift fun text made => TimeExpressions.mentions_of_timeRange lettered low hf made
  · exact Keeps.lift fun text made => TimeExpressions.mentions_of_timeRange lettered low avoidsName made

/-- **What the text of a placeholder mentions.** It mentions no name with a low line that the
column, its first argument, does not mention. -/
theorem mentions_of_expand (avoids : s.Avoids name) (lettered : IsLettered name)
    (low : '_' ∈ (asciiLower name).toList) {p : Placeholder} (known : p ∈ PlaceholderRegistry.builtin.entries)
    (texts : List String) :
    Keeps (fun _ => True) (fun text => Mentions name text.toList → ∃ column ∈ texts.head?, Mentions name column.toList)
      (p.expand s texts) := by
  have first (column : String) (more : List String) :
      ∀ text : String, (Mentions name text.toList → Mentions name column.toList) → Mentions name text.toList →
        ∃ c ∈ (column :: more).head?, Mentions name c.toList :=
    fun text h mentioned => ⟨column, rfl, h mentioned⟩
  rcases List.mem_pair.mp known with rfl | rfl
  · match texts with
    | [column] | [column, _] | [column, _, _] =>
      exact (mentions_of_filterColumn avoids lettered low _ _).mono (first _ _)
    | [] | _ :: _ :: _ :: _ :: _ => exact .throw _
  · match texts with
    | [column, stored, granularity] =>
      obtain ⟨format, ansi, -⟩ := avoids.arithmetic
      refine (Keeps.trivial _).bind fun _ _ => (Keeps.trivial _).bind fun _ _ => ?_
      rw [ansi]
      exact Keeps.lift fun text made => first _ _ text (TimeExpressions.mentions_of_floorGroup lettered low made)
    | [] | [_] | [_, _] | _ :: _ :: _ :: _ :: _ => exact .throw _

end Placeholder

end DetectionPlan
