/-
Components of periods: numbers and units as they are written one after the other. Cutting a text into
components and writing components in a row undo each other (`splitComponents_ok_iff`), and a component
can be entered into a period exactly if it is of the kind that its section has (`exists_addDate_iff`,
`exists_addTime_iff`).
-/
import DetectionPlan.Period.Parser
import DetectionPlan.Proofs.Outcome
import DetectionPlan.Proofs.Text.Number
import DetectionPlan.Proofs.Text.Splitting

namespace DetectionPlan.Period

open Outcome (bind_ok_iff map_ok_iff)

/-! ## How components are written -/

/-- Decimal digits of a number that a 32-bit word holds. -/
structure IsWhole (cs : List Char) : Prop where
  filled : cs ≠ []
  digits : ∀ c ∈ cs, c.isDigit
  fits : Nat.ofDigitChars 10 cs 0 < 2 ^ 32

/-- A number of seconds: a whole one, or one to three decimals after a point or comma with or without
a whole number in front. -/
inductive IsSeconds : List Char → Prop
  | whole {cs : List Char} (h : IsWhole cs) : IsSeconds cs
  | decimals {cs fraction : List Char} {point : Char} (front : cs = [] ∨ IsWhole cs)
      (mark : point = '.' ∨ point = ',') (digits : ∀ c ∈ fraction, c.isDigit)
      (some : 1 ≤ fraction.length) (few : fraction.length ≤ 3) : IsSeconds (cs ++ point :: fraction)

/-- The number and unit of a date component. -/
def IsDate (number : List Char) (unit : Char) : Prop :=
  IsWhole number ∧ unit.toUpper ∈ ['Y', 'M', 'W', 'D']

/-- The number and unit of a time component. -/
def IsTime (number : List Char) (unit : Char) : Prop :=
  IsWhole number ∧ unit.toUpper ∈ ['H', 'M'] ∨ IsSeconds number ∧ unit.toUpper = 'S'

/-- Components of a kind one after the other, each a number and a unit. -/
inductive IsRow (kind : List Char → Char → Prop) : List Char → Prop
  | nil : IsRow kind []
  | cons {number rest : List Char} {unit : Char} (first : kind number unit) (more : IsRow kind rest) :
      IsRow kind (number ++ unit :: rest)

/-! ## Characters -/

variable {c : Char}

theorem isAlpha_iff : c.isAlpha ↔
    65 ≤ c.toNat ∧ c.toNat ≤ 90 ∨ 97 ≤ c.toNat ∧ c.toNat ≤ 122 := by
  have upper : c.isUpper ↔ 65 ≤ c.toNat ∧ c.toNat ≤ 90 := decide_eq_true_iff
  have lower : c.isLower ↔ 97 ≤ c.toNat ∧ c.toNat ≤ 122 := by
    show (decide _ && decide _) = true ↔ _
    rw [Bool.and_eq_true, decide_eq_true_eq, decide_eq_true_eq]
    exact Iff.rfl
  rw [← upper, ← lower]
  exact Bool.or_eq_true_iff

theorem isAlpha_of_toUpper (h : c.toUpper.isAlpha) : c.isAlpha := by
  by_cases lower : 'a'.val ≤ c.val ∧ c.val ≤ 'z'.val
  · exact isAlpha_iff.mpr (.inr lower)
  · have same : c.toUpper = c := dif_neg lower
    rwa [same] at h

theorem isNumberChar_iff : isNumberChar c ↔ c.isDigit ∨ c = '.' ∨ c = ',' := by
  simp [isNumberChar, or_assoc]

theorem isNumberChar_of_isAlpha (h : c.isAlpha) : isNumberChar c = false := by
  rw [Bool.eq_false_iff]
  intro number
  have letter := isAlpha_iff.mp h
  rcases isNumberChar_iff.mp number with digit | rfl | rfl
  · have := isDigit_iff.mp digit
    omega
  · cases h
  · cases h

theorem isBlank_of_isAlpha (h : c.isAlpha) : isBlank c = false := by
  have letter := isAlpha_iff.mp h
  simp only [isBlank, Bool.or_eq_false_iff, Bool.and_eq_false_iff, decide_eq_false_iff_not, beq_eq_false_iff_ne]
  omega

theorem isTimeMark_iff : isTimeMark c ↔ c = 'T' ∨ c = 't' := by
  simp [isTimeMark]

theorem toUpper_of_isTimeMark (h : isTimeMark c) : c.toUpper = 'T' := by
  rcases isTimeMark_iff.mp h with rfl | rfl <;> decide

theorem isTimeMark_of_isNumberChar (h : isNumberChar c) : isTimeMark c = false := by
  rw [Bool.eq_false_iff]
  intro mark
  rcases isTimeMark_iff.mp mark with rfl | rfl <;> cases h

/-! ## Cutting into components -/

/-- Components as they are written. -/
def spelled (cs : List Component) : List Char := cs.flatMap fun c => c.1 ++ [c.2]

/-- What is cut off as a component: a number of some form and a letter. -/
structure IsComponent (c : Component) : Prop where
  filled : c.1 ≠ []
  number : ∀ d ∈ c.1, isNumberChar d
  unit : c.2.isAlpha

theorem spelled_cons (c : Component) (cs : List Component) :
    spelled (c :: cs) = c.1 ++ c.2 :: spelled cs := by
  simp [spelled]

theorem spelled_ne_nil {cs : List Component} (h : cs ≠ []) : spelled cs ≠ [] := by
  obtain ⟨c, cs, rfl⟩ := List.exists_cons_of_ne_nil h
  rw [spelled_cons]
  simp

/-- Cutting changes nothing of a text, the number that was being read included. -/
theorem spelled_of_splitComponents {number text : List Char} {cs : List Component}
    (read : ∀ d ∈ number, isNumberChar d) (h : splitComponents number text = .ok cs) :
    number.reverse ++ text = spelled cs ∧ ∀ c ∈ cs, IsComponent c := by
  induction text generalizing number cs with
  | nil =>
    cases number with
    | nil =>
      obtain rfl : [] = cs := Except.ok.inj h
      exact ⟨rfl, nofun⟩
    | cons d number => cases h
  | cons c rest ih =>
    unfold splitComponents at h
    by_cases numeral : isNumberChar c
    · rw [if_pos numeral] at h
      have read' : ∀ d ∈ c :: number, isNumberChar d := List.forall_mem_cons.mpr ⟨numeral, read⟩
      simpa using ih read' h
    · rw [if_neg numeral] at h
      by_cases letter : c.isAlpha
      · rw [if_pos letter] at h
        cases number with
        | nil => cases h
        | cons d number =>
          obtain ⟨others, split, rfl⟩ := map_ok_iff.mp h
          obtain ⟨text, all⟩ := ih (List.forall_mem_nil _) split
          refine ⟨?_, List.forall_mem_cons.mpr ⟨⟨?_, ?_, letter⟩, all⟩⟩
          · rw [spelled_cons, ← text]
            rfl
          · simp
          · exact fun e he => read e (List.mem_reverse.mp he)
      · rw [if_neg letter] at h
        cases h

theorem splitComponents_number {number read rest : List Char} (h : ∀ d ∈ number, isNumberChar d) :
    splitComponents read (number ++ rest) = splitComponents (number.reverse ++ read) rest := by
  induction number generalizing read with
  | nil => rfl
  | cons d number ih =>
    have first : splitComponents read (d :: (number ++ rest)) = splitComponents (d :: read) (number ++ rest) := by
      rw [splitComponents, if_pos (h d List.mem_cons_self)]
    rw [List.cons_append, first, ih fun e he => h e (List.mem_cons_of_mem _ he)]
    simp

theorem splitComponents_spelled {cs : List Component} (h : ∀ c ∈ cs, IsComponent c) :
    splitComponents [] (spelled cs) = .ok cs := by
  induction cs with
  | nil => rfl
  | cons c cs ih =>
    obtain ⟨⟨filled, number, unit⟩, others⟩ := List.forall_mem_cons.mp h
    have read : (c.1.reverse ++ []).isEmpty = false := by
      simpa using filled
    rw [spelled_cons, splitComponents_number number, splitComponents, if_neg (by simp [isNumberChar_of_isAlpha unit]),
      if_pos unit, read, if_neg nofun, ih others, List.append_nil, List.reverse_reverse]
    rfl

/-- Cutting a text into components and writing components one after the other undo each other. -/
theorem splitComponents_ok_iff {text : List Char} {cs : List Component} :
    splitComponents [] text = .ok cs ↔ text = spelled cs ∧ ∀ c ∈ cs, IsComponent c := by
  constructor
  · exact fun h => spelled_of_splitComponents (List.forall_mem_nil _) h
  · rintro ⟨rfl, all⟩
    exact splitComponents_spelled all

theorem isRow_iff {kind : List Char → Char → Prop} {text : List Char} :
    IsRow kind text ↔ ∃ cs : List Component, text = spelled cs ∧ ∀ c ∈ cs, kind c.1 c.2 := by
  constructor
  · intro h
    induction h with
    | nil => exact ⟨[], rfl, nofun⟩
    | @cons number rest unit first _ ih =>
      obtain ⟨cs, rfl, all⟩ := ih
      exact ⟨(number, unit) :: cs, (spelled_cons (number, unit) cs).symm, List.forall_mem_cons.mpr ⟨first, all⟩⟩
  · intro ⟨cs, text, all⟩
    rw [text]
    clear text
    induction cs with
    | nil => exact .nil
    | cons c cs ih =>
      obtain ⟨first, others⟩ := List.forall_mem_cons.mp all
      rw [spelled_cons]
      exact .cons first (ih others)

/-! ## Reading one component -/

theorem readWhole_ok_iff {cs : List Char} {n : UInt32} :
    readWhole cs = .ok n ↔ IsWhole cs ∧ n.toNat = Nat.ofDigitChars 10 cs 0 := by
  have most : maxWord32 + 1 = 2 ^ 32 := by decide
  unfold readWhole
  cases read : readDigits? cs with
  | none =>
    refine ⟨nofun, fun ⟨whole, _⟩ => ?_⟩
    have := readDigits?_eq_some_iff.mpr ⟨whole.filled, whole.digits, rfl⟩
    rw [read] at this
    cases this
  | some value =>
    obtain ⟨filled, digits, rfl⟩ := readDigits?_eq_some_iff.mp read
    dsimp only
    by_cases fits : Nat.ofDigitChars 10 cs 0 ≤ maxWord32
    · have small : Nat.ofDigitChars 10 cs 0 < 2 ^ 32 := by omega
      have word : (Nat.ofDigitChars 10 cs 0).toUInt32.toNat = Nat.ofDigitChars 10 cs 0 :=
        UInt32.toNat_ofNat_of_lt' small
      rw [if_pos fits, Except.ok.injEq, ← UInt32.toNat_inj, word]
      exact ⟨fun same => ⟨⟨filled, digits, small⟩, same.symm⟩, fun ⟨_, same⟩ => same.symm⟩
    · rw [if_neg fits]
      refine ⟨nofun, fun ⟨whole, _⟩ => ?_⟩
      have := whole.fits
      omega

theorem exists_readWhole_iff {cs : List Char} : (∃ n, readWhole cs = .ok n) ↔ IsWhole cs := by
  constructor
  · intro ⟨n, h⟩
    exact (readWhole_ok_iff.mp h).1
  · intro whole
    refine ⟨(Nat.ofDigitChars 10 cs 0).toUInt32, readWhole_ok_iff.mpr ⟨whole, ?_⟩⟩
    exact UInt32.toNat_ofNat_of_lt' whole.fits

/-- Points and commas alike as points. -/
def dotted (c : Char) : Char := if c == ',' then '.' else c

/-- The characters that part seconds from their decimals. -/
def isPoint (c : Char) : Bool := c == '.' || c == ','

theorem dotted_of_isPoint (h : isPoint c) : dotted c = '.' := by
  rcases Bool.or_eq_true_iff.mp h with e | e <;> (rw [eq_of_beq e]; rfl)

theorem dotted_of_not_isPoint (h : isPoint c = false) : dotted c = c := by
  unfold dotted
  rw [if_neg]
  intro comma
  simp [isPoint, eq_of_beq comma] at h

theorem isPoint_of_isDigit (h : c.isDigit) : isPoint c = false := by
  rw [Bool.eq_false_iff]
  intro point
  rcases Bool.or_eq_true_iff.mp point with e | e
  · rw [eq_of_beq e] at h
    cases h
  · rw [eq_of_beq e] at h
    cases h

theorem map_dotted {cs : List Char} (h : ∀ c ∈ cs, isPoint c = false) : cs.map dotted = cs :=
  (List.map_congr_left fun c hc => dotted_of_not_isPoint (h c hc)).trans (List.map_id' cs)

/-- What is a digit with points for commas is the same digit without. -/
theorem isDigit_of_dotted (h : (dotted c).isDigit) : c.isDigit := by
  have other : isPoint c = false := by
    rw [Bool.eq_false_iff]
    intro point
    rw [dotted_of_isPoint point] at h
    cases h
  rwa [dotted_of_not_isPoint other] at h

theorem ne_point_of_not_isPoint (h : isPoint c = false) : (c == '.') = false := (Bool.or_eq_false_iff.mp h).1

theorem readSeconds_whole {cs : List Char} (h : ∀ c ∈ cs, isPoint c = false) :
    readSeconds cs = (readWhole cs).map (·, 0) := by
  have same : (cs.map fun c => if c == ',' then '.' else c) = cs := map_dotted h
  have after : cs.dropWhile (· != '.') = [] := (cut_nowhere fun c hc => ne_point_of_not_isPoint (h c hc)).2
  unfold readSeconds
  simp only [same, after]
  cases readWhole cs <;> rfl

/-- Seconds with decimals are read in two parts, of which the decimals are filled up with zeros to
thousandths. -/
theorem readSeconds_decimals_eq {cs fraction : List Char} {point : Char}
    (front : ∀ c ∈ cs, isPoint c = false) (mark : isPoint point) :
    readSeconds (cs ++ point :: fraction) =
      if fraction.isEmpty || 3 < fraction.length then
        .error (.fractionDigits (String.ofList (cs ++ point :: fraction)))
      else (do
        let seconds ← if cs.isEmpty then .ok 0 else readWhole cs
        let millis ← readWhole (fraction.map dotted ++ List.replicate (3 - fraction.length) '0')
        .ok (seconds, millis)) := by
  have text : ((cs ++ point :: fraction).map fun c => if c == ',' then '.' else c) =
      cs ++ '.' :: fraction.map dotted := by
    show (cs ++ point :: fraction).map dotted = _
    rw [List.map_append, List.map_cons, map_dotted front, dotted_of_isPoint mark]
  have cut : (cs ++ '.' :: fraction.map dotted).takeWhile (· != '.') = cs ∧
      (cs ++ '.' :: fraction.map dotted).dropWhile (· != '.') = '.' :: fraction.map dotted :=
    cut_at_first (fun c hc => ne_point_of_not_isPoint (front c hc)) BEq.rfl _
  unfold readSeconds
  simp only [text, cut, List.length_map, List.isEmpty_map]

theorem pair_ok_iff {ε α β : Type} {x : Except ε β} {a first : α} {second : β} :
    (x >>= fun b => Except.ok (a, b)) = .ok (first, second) ↔ first = a ∧ x = .ok second := by
  rw [bind_ok_iff]
  constructor
  · intro ⟨b, read, same⟩
    obtain ⟨rfl, rfl⟩ := Prod.mk.inj (Except.ok.inj same)
    exact ⟨rfl, read⟩
  · rintro ⟨rfl, read⟩
    exact ⟨second, read, rfl⟩

/-- Seconds with decimals are read if there are one to three decimals. -/
theorem readSeconds_decimals_ok_iff {cs fraction : List Char} {point : Char} {seconds millis : UInt32}
    (front : ∀ c ∈ cs, isPoint c = false) (mark : isPoint point) :
    readSeconds (cs ++ point :: fraction) = .ok (seconds, millis) ↔
      (1 ≤ fraction.length ∧ fraction.length ≤ 3) ∧
        (cs = [] ∧ seconds = 0 ∨ cs ≠ [] ∧ readWhole cs = .ok seconds) ∧
        readWhole (fraction.map dotted ++ List.replicate (3 - fraction.length) '0') = .ok millis := by
  have counts : (fraction.isEmpty || decide (3 < fraction.length)) = false ↔
      1 ≤ fraction.length ∧ fraction.length ≤ 3 := by
    rw [Bool.or_eq_false_iff, List.isEmpty_eq_false_iff, decide_eq_false_iff_not, ← List.length_pos_iff]
    omega
  rw [readSeconds_decimals_eq front mark]
  by_cases few : 1 ≤ fraction.length ∧ fraction.length ≤ 3
  · rw [counts.mpr few, if_neg nofun]
    cases cs with
    | nil =>
      show (readWhole _ >>= fun m => Except.ok (0, m)) = _ ↔ _
      rw [pair_ok_iff]
      simp [few]
    | cons c cs =>
      show (readWhole (c :: cs) >>= fun n => readWhole _ >>= fun m => Except.ok (n, m)) = _ ↔ _
      simp only [bind_ok_iff (x := readWhole (c :: cs)), pair_ok_iff]
      simp [few]
  · rw [if_pos (Bool.eq_true_of_not_eq_false (few ∘ counts.mp))]
    exact ⟨nofun, fun ⟨few', _⟩ => absurd few' few⟩

theorem isWhole_zeros {cs : List Char} {n : Nat} (digits : ∀ c ∈ cs, c.isDigit) (length : cs.length + n = 3) :
    IsWhole (cs ++ List.replicate n '0') := by
  have all : ∀ c ∈ cs ++ List.replicate n '0', c.isDigit := by
    intro c hc
    rcases List.mem_append.mp hc with front | back
    · exact digits c front
    · rw [List.eq_of_mem_replicate back]
      rfl
  have count : (cs ++ List.replicate n '0').length = 3 := by
    rw [List.length_append, List.length_replicate, length]
  refine ⟨fun none => ?_, all, ?_⟩
  · rw [none] at count
    cases count
  · have below := ofDigitChars_lt all
    rw [count] at below
    omega

theorem exists_readSeconds_iff {cs : List Char} : (∃ r, readSeconds cs = .ok r) ↔ IsSeconds cs := by
  constructor
  · intro ⟨⟨seconds, millis⟩, h⟩
    rcases exists_first isPoint cs with whole | ⟨front, point, fraction, rfl, others, mark⟩
    · rw [readSeconds_whole whole] at h
      obtain ⟨n, read, -⟩ := map_ok_iff.mp h
      exact .whole (readWhole_ok_iff.mp read).1
    · obtain ⟨few, start, read⟩ := (readSeconds_decimals_ok_iff others mark).mp h
      have digits : ∀ c ∈ fraction, c.isDigit := fun c hc => isDigit_of_dotted
        ((readWhole_ok_iff.mp read).1.digits _ (List.mem_append_left _ (List.mem_map_of_mem hc)))
      refine .decimals ?_ (by simpa [isPoint] using mark) digits few.1 few.2
      exact start.imp (·.1) fun read => (readWhole_ok_iff.mp read.2).1
  · intro h
    cases h with
    | whole h =>
      obtain ⟨n, read⟩ := exists_readWhole_iff.mpr h
      rw [readSeconds_whole fun c hc => isPoint_of_isDigit (h.digits c hc), read]
      exact ⟨_, rfl⟩
    | @decimals cs fraction point front mark digits some few =>
      have others : ∀ c ∈ cs, isPoint c = false := by
        rcases front with rfl | whole
        · exact List.forall_mem_nil _
        · exact fun c hc => isPoint_of_isDigit (whole.digits c hc)
      have same : fraction.map dotted = fraction := map_dotted fun c hc => isPoint_of_isDigit (digits c hc)
      obtain ⟨millis, read⟩ := exists_readWhole_iff.mpr
        (isWhole_zeros digits (show fraction.length + (3 - fraction.length) = 3 by omega))
      rcases front with rfl | whole
      · exact ⟨(0, millis), (readSeconds_decimals_ok_iff others (by simpa [isPoint] using mark)).mpr
          ⟨⟨some, few⟩, .inl ⟨rfl, rfl⟩, by rwa [same]⟩⟩
      · obtain ⟨seconds, start⟩ := exists_readWhole_iff.mpr whole
        exact ⟨(seconds, millis), (readSeconds_decimals_ok_iff others (by simpa [isPoint] using mark)).mpr
          ⟨⟨some, few⟩, .inr ⟨whole.filled, start⟩, by rwa [same]⟩⟩

/-! ## Reading components in a row -/

theorem exists_addDate_iff (p : Period) (c : Component) : (∃ q, addDate p c = .ok q) ↔ IsDate c.1 c.2 := by
  unfold addDate IsDate
  constructor
  · intro ⟨q, h⟩
    obtain ⟨n, read, h⟩ := bind_ok_iff.mp h
    refine ⟨(readWhole_ok_iff.mp read).1, ?_⟩
    split at h
    case h_5 => cases h
    all_goals
      next e => simp [e]
  · intro ⟨whole, unit⟩
    obtain ⟨n, read⟩ := exists_readWhole_iff.mpr whole
    rw [read]
    simp only [List.mem_cons, List.not_mem_nil, or_false] at unit
    rcases unit with e | e | e | e <;> exact ⟨_, by rw [e]; rfl⟩

theorem exists_addTime_iff (p : Period) (c : Component) : (∃ q, addTime p c = .ok q) ↔ IsTime c.1 c.2 := by
  unfold addTime IsTime
  constructor
  · intro ⟨q, h⟩
    split at h
    next e =>
      obtain ⟨n, read, -⟩ := bind_ok_iff.mp h
      exact .inl ⟨(readWhole_ok_iff.mp read).1, by simp [e]⟩
    next e =>
      obtain ⟨n, read, -⟩ := bind_ok_iff.mp h
      exact .inl ⟨(readWhole_ok_iff.mp read).1, by simp [e]⟩
    next e =>
      obtain ⟨n, read, -⟩ := bind_ok_iff.mp h
      exact .inr ⟨exists_readSeconds_iff.mp ⟨n, read⟩, e⟩
    next => cases h
  · intro h
    rcases h with ⟨whole, unit⟩ | ⟨seconds, unit⟩
    · obtain ⟨n, read⟩ := exists_readWhole_iff.mpr whole
      simp only [List.mem_cons, List.not_mem_nil, or_false] at unit
      rcases unit with e | e <;> exact ⟨_, by rw [e, read]; rfl⟩
    · obtain ⟨n, read⟩ := exists_readSeconds_iff.mpr seconds
      exact ⟨_, by rw [unit, read]; rfl⟩

theorem IsWhole.number {cs : List Char} (h : IsWhole cs) : ∀ c ∈ cs, isNumberChar c :=
  fun c hc => isNumberChar_iff.mpr (.inl (h.digits c hc))

theorem IsSeconds.number {cs : List Char} (h : IsSeconds cs) : cs ≠ [] ∧ ∀ c ∈ cs, isNumberChar c := by
  cases h with
  | whole h => exact ⟨h.filled, h.number⟩
  | @decimals cs fraction point front mark digits =>
    have number : ∀ c ∈ cs, isNumberChar c := by
      rcases front with rfl | whole
      · exact List.forall_mem_nil _
      · exact whole.number
    refine ⟨by simp, List.forall_mem_append.mpr ⟨number, List.forall_mem_cons.mpr ⟨?_, ?_⟩⟩⟩
    · exact isNumberChar_iff.mpr (.inr mark)
    · exact fun c hc => isNumberChar_iff.mpr (.inl (digits c hc))

theorem IsDate.isComponent {c : Component} (h : IsDate c.1 c.2) : IsComponent c := by
  obtain ⟨whole, unit⟩ := h
  refine ⟨whole.filled, whole.number, isAlpha_of_toUpper ?_⟩
  simp only [List.mem_cons, List.not_mem_nil, or_false] at unit
  rcases unit with e | e | e | e <;> (rw [e]; rfl)

theorem IsTime.isComponent {c : Component} (h : IsTime c.1 c.2) : IsComponent c := by
  rcases h with ⟨whole, unit⟩ | ⟨seconds, unit⟩
  · refine ⟨whole.filled, whole.number, isAlpha_of_toUpper ?_⟩
    simp only [List.mem_cons, List.not_mem_nil, or_false] at unit
    rcases unit with e | e <;> (rw [e]; rfl)
  · obtain ⟨filled, number⟩ := seconds.number
    exact ⟨filled, number, isAlpha_of_toUpper (by rw [unit]; rfl)⟩

end DetectionPlan.Period
