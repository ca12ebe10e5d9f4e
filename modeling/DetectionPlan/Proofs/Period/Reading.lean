/-
Texts that are read as periods. The rules of writing are given apart from the reader (`IsWritten`),
and the reader accepts a text exactly if, but for blanks around it, it is written by them
(`parse_accepts_exactly`).
-/
import DetectionPlan.Proofs.Period.Component

namespace DetectionPlan.Period

open Outcome (bind_ok_iff)

/-! ## How periods are written -/

/-- The components of a period: those of the date, and after a `T` those of the time. At least one
there is, and behind a `T` one of the time. -/
inductive IsBody : List Char → Prop
  | date {date : List Char} (dates : IsRow IsDate date) (filled : date ≠ []) : IsBody date
  | time {date time : List Char} {mark : Char} (dates : IsRow IsDate date) (begins : mark = 'T' ∨ mark = 't')
      (times : IsRow IsTime time) (filled : time ≠ []) : IsBody (date ++ mark :: time)

/-- A text that denotes a period. -/
inductive IsWritten : List Char → Prop
  | mk {letter : Char} {body : List Char} (begins : letter = 'P' ∨ letter = 'p') (components : IsBody body) :
      IsWritten (letter :: body)

variable {c : Char}

/-! ## Reading a section -/

/-- Read the components of a section one after the other. -/
def readSection (add : Period → Component → Except PeriodDefect Period) (text : List Char) (p : Period) :
    Except PeriodDefect Period := do
  (← splitComponents [] text).foldlM add p

theorem readSection_spelled {add : Period → Component → Except PeriodDefect Period} {cs : List Component}
    (h : ∀ c ∈ cs, IsComponent c) (q : Period) : readSection add (spelled cs) q = cs.foldlM add q := by
  rw [readSection, splitComponents_spelled h]
  rfl

/-- A section is read if it is a row of components that can be entered. -/
theorem exists_readSection_iff {add : Period → Component → Except PeriodDefect Period}
    {kind : List Char → Char → Prop} (enters : ∀ p c, (∃ q, add p c = .ok q) ↔ kind c.1 c.2)
    (cut : ∀ c : Component, kind c.1 c.2 → IsComponent c) {text : List Char} {p : Period} :
    (∃ q, readSection add text p = .ok q) ↔ IsRow kind text := by
  rw [isRow_iff]
  constructor
  · intro ⟨q, h⟩
    obtain ⟨cs, split, entered⟩ := bind_ok_iff.mp h
    exact ⟨cs, (splitComponents_ok_iff.mp split).1,
      (Outcome.exists_foldlM_ok_iff (P := fun c : Component => kind c.1 c.2) enters).mp ⟨q, entered⟩⟩
  · intro ⟨cs, text, all⟩
    obtain ⟨q, entered⟩ := (Outcome.exists_foldlM_ok_iff (P := fun c : Component => kind c.1 c.2) enters (b := p)).mpr all
    have split := splitComponents_ok_iff.mpr ⟨text, fun c hc => cut c (all c hc)⟩
    exact ⟨q, bind_ok_iff.mpr ⟨cs, split, entered⟩⟩

/-- What entering a component keeps, reading a section keeps. -/
theorem readSection_keeps {add : Period → Component → Except PeriodDefect Period} {I : Period → Prop}
    (step : ∀ p c q, I p → add p c = .ok q → I q) {text : List Char} {p q : Period} (start : I p)
    (h : readSection add text p = .ok q) : I q := by
  obtain ⟨cs, -, entered⟩ := bind_ok_iff.mp h
  exact Outcome.foldlM_keeps step start entered

theorem exists_readDate_iff {text : List Char} {p : Period} :
    (∃ q, readSection addDate text p = .ok q) ↔ IsRow IsDate text :=
  exists_readSection_iff exists_addDate_iff fun _ => IsDate.isComponent

theorem exists_readTime_iff {text : List Char} {p : Period} :
    (∃ q, readSection addTime text p = .ok q) ↔ IsRow IsTime text :=
  exists_readSection_iff exists_addTime_iff fun _ => IsTime.isComponent

/-! ## Sections of a period -/

/-- No date component holds the letter that starts the time section. -/
theorem not_isTimeMark_of_isRow {text : List Char} (h : IsRow IsDate text) : ∀ c ∈ text, isTimeMark c = false := by
  induction h with
  | nil => exact List.forall_mem_nil _
  | cons first _ ih =>
    obtain ⟨whole, unit⟩ := first
    refine List.forall_mem_append.mpr ⟨?_, List.forall_mem_cons.mpr ⟨?_, ih⟩⟩
    · exact fun c hc => isTimeMark_of_isNumberChar (whole.number c hc)
    · rw [Bool.eq_false_iff]
      intro mark
      rw [toUpper_of_isTimeMark mark] at unit
      simp at unit

/-- Without a time section all of a period is its date. -/
theorem readBody_date {date : List Char} (unmarked : ∀ c ∈ date, isTimeMark c = false) (filled : date ≠ []) :
    readBody date = readSection addDate date zero := by
  obtain ⟨before, after⟩ := cut_nowhere unmarked
  have some : date.isEmpty = false := List.isEmpty_eq_false_iff.mpr filled
  unfold readBody
  simp only [before, after, some, Bool.false_eq_true, if_false]
  show (splitComponents [] date >>= fun cs => cs.foldlM addDate zero >>= pure) = _
  simp only [bind_pure]
  rfl

/-- Otherwise the two sections are read one after the other. -/
theorem readBody_time {date time : List Char} {mark : Char} (unmarked : ∀ c ∈ date, isTimeMark c = false)
    (begins : isTimeMark mark) (filled : time ≠ []) :
    readBody (date ++ mark :: time) = readSection addDate date zero >>= readSection addTime time := by
  obtain ⟨before, after⟩ := cut_at_first unmarked begins time
  have some : (date ++ mark :: time).isEmpty = false := by simp
  obtain ⟨c, rest, rfl⟩ := List.exists_cons_of_ne_nil filled
  unfold readBody
  simp only [before, after, some, Bool.false_eq_true, if_false]
  exact (bind_assoc (splitComponents [] date) (fun cs => cs.foldlM addDate zero)
    (readSection addTime (c :: rest))).symm

theorem readBody_unfinished {date : List Char} {mark : Char} (unmarked : ∀ c ∈ date, isTimeMark c = false)
    (begins : isTimeMark mark) : readBody (date ++ [mark]) = .error .emptyTimeSection := by
  obtain ⟨-, after⟩ := cut_at_first unmarked begins []
  have some : (date ++ [mark]).isEmpty = false := by simp
  unfold readBody
  simp only [after, some, Bool.false_eq_true, if_false]
  rfl

/-- What is read from the components of a period is read from its date, or from that and its time. -/
theorem readBody_ok {body : List Char} {p : Period} (h : readBody body = .ok p) :
    body ≠ [] ∧ readSection addDate body zero = .ok p ∨
      ∃ date mark time q, body = date ++ mark :: time ∧ isTimeMark mark ∧ time ≠ [] ∧
        readSection addDate date zero = .ok q ∧ readSection addTime time q = .ok p := by
  rcases exists_first isTimeMark body with unmarked | ⟨date, mark, time, rfl, unmarked, begins⟩
  · have filled : body ≠ [] := by
      rintro rfl
      cases h
    exact .inl ⟨filled, readBody_date unmarked filled ▸ h⟩
  · have filled : time ≠ [] := by
      rintro rfl
      rw [readBody_unfinished unmarked begins] at h
      cases h
    rw [readBody_time unmarked begins filled] at h
    obtain ⟨q, dates, times⟩ := bind_ok_iff.mp h
    exact .inr ⟨date, mark, time, q, rfl, begins, filled, dates, times⟩

theorem exists_readBody_iff {body : List Char} : (∃ p, readBody body = .ok p) ↔ IsBody body := by
  constructor
  · intro ⟨p, h⟩
    rcases readBody_ok h with ⟨filled, dates⟩ | ⟨date, mark, time, q, rfl, begins, filled, dates, times⟩
    · exact .date (exists_readDate_iff.mp ⟨p, dates⟩) filled
    · exact .time (exists_readDate_iff.mp ⟨q, dates⟩) (isTimeMark_iff.mp begins)
        (exists_readTime_iff.mp ⟨p, times⟩) filled
  · intro h
    cases h with
    | date dates filled =>
      rw [readBody_date (not_isTimeMark_of_isRow dates) filled]
      exact exists_readDate_iff.mpr dates
    | time dates begins times filled =>
      obtain ⟨q, hq⟩ := exists_readDate_iff (p := zero).mpr dates
      obtain ⟨p, hp⟩ := exists_readTime_iff (p := q).mpr times
      rw [readBody_time (not_isTimeMark_of_isRow dates) (isTimeMark_iff.mpr begins) filled]
      exact ⟨p, bind_ok_iff.mpr ⟨q, hq, hp⟩⟩

theorem read_ok {text : List Char} {p : Period} (h : read text = .ok p) :
    ∃ letter body, text = letter :: body ∧ (letter = 'P' ∨ letter = 'p') ∧ readBody body = .ok p := by
  unfold read at h
  split at h
  next letter body =>
    split at h
    next begins => exact ⟨letter, body, rfl, by simpa using begins, h⟩
    next => cases h
  next => cases h

theorem exists_read_iff {text : List Char} : (∃ p, read text = .ok p) ↔ IsWritten text := by
  constructor
  · intro ⟨p, h⟩
    obtain ⟨letter, body, rfl, begins, components⟩ := read_ok h
    exact .mk begins (exists_readBody_iff.mp ⟨p, components⟩)
  · intro h
    obtain @⟨letter, body, begins, components⟩ := h
    have starts : (letter == 'P' || letter == 'p') = true := by simpa using begins
    simp only [read, if_pos starts]
    exact exists_readBody_iff.mpr components

/-! ## Blanks around a period -/

/-- A text ends in a letter if what stands behind some letter in it does. -/
theorem isAlpha_getLast? {front rest : List Char} (letter : c.isAlpha) (h : ∀ d ∈ rest.getLast?, d.isAlpha) :
    ∀ d ∈ (front ++ c :: rest).getLast?, d.isAlpha := by
  intro d hd
  rw [List.getLast?_append, List.getLast?_cons, Option.some_or] at hd
  obtain rfl := Option.some.inj hd
  cases last : rest.getLast? with
  | none => exact letter
  | some e => exact h e last

theorem IsRow.isAlpha_getLast? {kind : List Char → Char → Prop} {text : List Char} (h : IsRow kind text)
    (cut : ∀ c : Component, kind c.1 c.2 → IsComponent c) : ∀ d ∈ text.getLast?, d.isAlpha := by
  induction h with
  | nil => nofun
  | @cons number rest unit first _ ih => exact Period.isAlpha_getLast? (cut (number, unit) first).unit ih

theorem IsBody.isAlpha_getLast? {text : List Char} (h : IsBody text) : ∀ d ∈ text.getLast?, d.isAlpha := by
  cases h with
  | date dates => exact dates.isAlpha_getLast? fun _ => IsDate.isComponent
  | time _ begins times =>
    refine Period.isAlpha_getLast? ?_ (times.isAlpha_getLast? fun _ => IsTime.isComponent)
    rcases begins with rfl | rfl <;> rfl

/-- A period begins and ends with a letter, so blanks around it do not belong to it. -/
theorem trimBy_of_isWritten {before text after : List Char} (h : IsWritten text)
    (front : ∀ c ∈ before, isBlank c) (back : ∀ c ∈ after, isBlank c) :
    trimBy isBlank (before ++ text ++ after) = text := by
  obtain @⟨letter, body, begins, components⟩ := h
  have alpha : letter.isAlpha := by
    rcases begins with rfl | rfl <;> rfl
  refine trimBy_append front back (List.cons_ne_nil _ _) ?_ ?_
  · intro d hd
    obtain rfl := Option.some.inj hd
    exact isBlank_of_isAlpha alpha
  · have last : ∀ d ∈ ([] ++ letter :: body).getLast?, d.isAlpha :=
      Period.isAlpha_getLast? alpha components.isAlpha_getLast?
    exact fun d hd => isBlank_of_isAlpha (last d hd)

/-- A period with blanks around it. -/
def IsPeriodText (cs : List Char) : Prop :=
  ∃ before text after, cs = before ++ text ++ after ∧ (∀ c ∈ before, isBlank c) ∧
    (∀ c ∈ after, isBlank c) ∧ IsWritten text

theorem isPeriodText_iff {cs : List Char} : IsPeriodText cs ↔ IsWritten (trimBy isBlank cs) := by
  constructor
  · rintro ⟨before, text, after, rfl, front, back, written⟩
    rwa [trimBy_of_isWritten written front back]
  · intro written
    obtain ⟨before, after, split, front, back⟩ := exists_trimBy isBlank cs
    exact ⟨before, _, after, split, front, back, written⟩

theorem parse_ok_iff {s : String} {p : Period} : parse s = .ok p ↔ read (trimBy isBlank s.toList) = .ok p := by
  rw [parse]
  cases read (trimBy isBlank s.toList) <;> simp [Except.mapError]

/-- **What is read as a period.** A text is accepted exactly if it is, but for blanks around it, written
by the rules, and any other text is refused as no period. -/
theorem parse_accepts_exactly (s : String) :
    ((∃ p, parse s = .ok p) ↔ IsPeriodText s.toList) ∧
      ((∃ defect, parse s = .error (.invalidPeriod s defect)) ↔ ¬ IsPeriodText s.toList) := by
  rw [isPeriodText_iff, ← exists_read_iff, parse]
  cases read (trimBy isBlank s.toList) with
  | ok p => simp [Except.mapError]
  | error defect => simp [Except.mapError]

end DetectionPlan.Period
