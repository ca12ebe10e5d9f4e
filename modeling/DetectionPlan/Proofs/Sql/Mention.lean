/-
Names that a text mentions. A text that is put together of pieces with other characters between
them mentions what the pieces mention, and the words and strings of a text are names that it
mentions (`mentions_of_scan`).
-/
import DetectionPlan.Proofs.Sql.Local.Basic
import DetectionPlan.Proofs.Sql.Spelling

namespace DetectionPlan.Sql

/-! ## Names in texts -/

/-- The characters of names that are made of letters and low lines. -/
def isNameLetter (c : Char) : Bool := c.isAlpha || c == '_'

/-- A name made of letters and low lines. -/
def IsLettered (name : String) : Prop := ∀ c ∈ (asciiLower name).toList, isNameLetter c

instance (name : String) : Decidable (IsLettered name) := List.decidableBAll _ _

/-- A text without its backslashes, in lower case. -/
def plainText (cs : List Char) : List Char := (cs.filter (· != '\\')).map Char.toLower

/-- A text mentions a name that stands in it, in any case of its letters and whatever backslashes
stand among them: in a string they may vanish. -/
def Mentions (name : String) (cs : List Char) : Prop := (asciiLower name).toList <:+: plainText cs

instance (name : String) (cs : List Char) : Decidable (Mentions name cs) :=
  inferInstanceAs (Decidable (_ <:+: _))

variable {name : String} {cs ds : List Char} {c : Char}

theorem isUpper_iff : c.isUpper ↔ 'A'.val ≤ c.val ∧ c.val ≤ 'Z'.val := decide_eq_true_iff

theorem toLower_eq_or (c : Char) : c.isUpper ∨ c.toLower = c := by
  by_cases h : 'A'.val ≤ c.val ∧ c.val ≤ 'Z'.val
  · exact .inl (isUpper_iff.mpr h)
  · exact .inr (dif_neg h)

theorem isNameLetter_of_toLower (h : isNameLetter c.toLower) : isNameLetter c := by
  rcases toLower_eq_or c with upper | same
  · exact Bool.or_eq_true_iff.mpr (.inl (Bool.or_eq_true_iff.mpr (.inl upper)))
  · rwa [same] at h

theorem not_isDigit_of_isNameLetter (h : isNameLetter c) : c.isDigit = false := by
  rcases Bool.or_eq_true_iff.mp h with alpha | low
  · have behind : 'A'.val ≤ c.val := by
      rcases Bool.or_eq_true_iff.mp alpha with upper | lower
      · exact (isUpper_iff.mp upper).1
      · exact Nat.le_trans (by decide) (of_decide_eq_true (Bool.and_eq_true_iff.mp lower).1)
    have beyond : '9'.val < c.val := Nat.lt_of_lt_of_le (by decide) behind
    exact Bool.and_eq_false_iff.mpr (.inr (decide_eq_false (Nat.not_le_of_lt beyond)))
  · rw [beq_iff_eq.mp low]
    rfl

theorem eq_low_line_of_toLower (h : c.toLower = '_') : c = '_' := by
  rcases toLower_eq_or c with upper | same
  · obtain ⟨low, high⟩ := isUpper_iff.mp upper
    have shifted : c.toLower = _ := dif_pos ⟨low, high⟩
    have value : c.val + ('a'.val - 'A'.val) = '_'.val := congrArg Char.val (shifted.symm.trans h)
    grind
  · exact same.symm.trans h

theorem plainText_append (cs ds : List Char) : plainText (cs ++ ds) = plainText cs ++ plainText ds := by
  simp [plainText]

theorem plainText_cons (h : c ≠ '\\') : plainText (c :: cs) = c.toLower :: plainText cs := by
  simp [plainText, h]

/-- What stands on both sides of a character that is in no name is mentioned on one side. -/
theorem mentions_append_cons (lettered : IsLettered name) (slash : c ≠ '\\') (parts : isNameLetter c = false) :
    Mentions name (cs ++ c :: ds) → Mentions name cs ∨ Mentions name ds := by
  intro h
  rw [Mentions, plainText_append, plainText_cons slash, List.infix_append_iff] at h
  have outside : c.toLower ∉ (asciiLower name).toList := fun mem => by
    rw [isNameLetter_of_toLower (lettered _ mem)] at parts
    cases parts
  have behind {w : List Char} (front : w <+: c.toLower :: plainText ds) (sub : w ⊆ (asciiLower name).toList) :
      w = [] := by
    rcases List.prefix_cons_iff.mp front with rfl | ⟨w, rfl, -⟩
    · rfl
    · exact absurd (sub (by simp)) outside
  rcases h with before | after | ⟨u, w, split, before, after⟩
  · exact .inl before
  · rcases List.infix_cons_iff.mp after with front | after
    · have empty := behind front (List.Subset.refl _)
      exact .inl (by rw [Mentions, empty]; exact List.nil_infix)
    · exact .inr after
  · obtain rfl := behind after (split ▸ List.subset_append_right u w)
    rw [List.append_nil] at split
    exact .inl (by rw [Mentions, split]; exact before.isInfix)

theorem not_mentions_of_low_line (given : '_' ∈ (asciiLower name).toList) (none : '_' ∉ cs) :
    ¬ Mentions name cs := by
  intro h
  obtain ⟨c, mem, lower⟩ := List.mem_map.mp (h.subset given)
  rw [eq_low_line_of_toLower lower] at mem
  exact none (List.mem_of_mem_filter mem)

/-! ## Words of a text -/

namespace Lexer

variable {s : ParserSettings} {g : Grammar} {q : Char} {text v : List Char} {t : Token} {i : Ident}

/-- A character that a backslash stands before is the letter that it stands for. -/
theorem escaped_isNameLetter {d : Char} (h : isNameLetter (escaped d)) : escaped d = d ∧ d ≠ '\\' := by
  unfold escaped at h ⊢
  split at h
  any_goals cases h
  refine ⟨rfl, ?_⟩
  rintro rfl
  cases h

/-- A quoted text of letters stands in the text that it is read from, but for backslashes. -/
theorem untilQuote_letters {unescape backslash : Bool} (hq : isNameLetter q = false) : ∀ {cs text v : List Char},
    untilQuote unescape backslash q cs = some (text, v) → (∀ c ∈ text, isNameLetter c) →
      text <+: cs.filter (· != '\\')
  | [], _, _, h, _ => by cases h
  | [c], text, v, h, _ => by
    rw [untilQuote] at h
    split at h
    · obtain ⟨rfl, -⟩ := Prod.mk.inj (Option.some.inj h)
      exact List.nil_prefix
    · cases h
  | c :: d :: rest, text, v, h, letters => by
    rw [untilQuote] at h
    simp only at h
    split at h
    next quote =>
      obtain rfl : c = q := by simpa using quote
      split at h
      · obtain ⟨⟨more, left⟩, -, made⟩ := Option.map_eq_some_iff.mp h
        obtain ⟨rfl, -⟩ := Prod.mk.inj made
        have := letters c (by split <;> simp)
        rw [hq] at this
        cases this
      · obtain ⟨rfl, -⟩ := Prod.mk.inj (Option.some.inj h)
        exact List.nil_prefix
    split at h
    next slash =>
      obtain rfl : c = '\\' := by simpa using (Bool.and_eq_true_iff.mp slash).2
      obtain ⟨⟨more, left⟩, read, made⟩ := Option.map_eq_some_iff.mp h
      obtain ⟨rfl, -⟩ := Prod.mk.inj made
      cases unescape with
      | false => exact absurd (letters '\\' (by simp)) (by decide)
      | true =>
        obtain ⟨same, plain⟩ := escaped_isNameLetter (letters (escaped d) (by simp))
        have more := untilQuote_letters hq read fun c hc => letters c (by simp [hc])
        simpa [same, plain] using more
    next =>
      obtain ⟨⟨more, left⟩, read, made⟩ := Option.map_eq_some_iff.mp h
      obtain ⟨rfl, -⟩ := Prod.mk.inj made
      have letter := letters c (by simp)
      have plain : c ≠ '\\' := by
        rintro rfl
        cases letter
      have more := untilQuote_letters hq read fun c hc => letters c (by simp [hc])
      rw [List.filter_cons_of_pos (by simpa using plain)]
      exact (List.prefix_cons_inj c).mpr more

/-- As a part of a name a token of letters stands in the text that it is cut off. -/
def StandsIn (cs : List Char) (t : Token) : Prop :=
  ∀ i, Parser.partOf? t = some i → (∀ c ∈ i.text.toList, isNameLetter c) →
    i.text.toList <:+: cs.filter (· != '\\')

theorem standsIn_of_partOf? (h : Parser.partOf? t = none) : StandsIn cs t := by
  intro i part
  rw [h] at part
  cases part

theorem quoted_standsIn {make : String → Token} {unescape backslash : Bool} (hq : isNameLetter q = false)
    (hm : ∀ text i, Parser.partOf? (make text) = some i → i.text = text)
    (h : quoted make (untilQuote unescape backslash q cs) = .ok (some t, v)) : StandsIn cs t := by
  obtain ⟨text, read, made⟩ := quoted_ok h
  obtain rfl := Option.some.inj made
  intro i part letters
  rw [hm _ i part, String.toList_ofList] at letters ⊢
  exact (untilQuote_letters hq read letters).isInfix

/-- A word without quotes. -/
theorem ofWord_standsIn (front : ds <+: cs) : StandsIn cs (.ofWord (String.ofList ds)) := by
  intro i part letters
  obtain rfl := Option.some.inj part
  simp only [String.toList_ofList] at letters ⊢
  have same : ds.filter (· != '\\') = ds := by
    refine List.filter_eq_self.mpr fun c hc => ?_
    have letter := letters c hc
    simp only [bne_iff_ne, ne_eq]
    rintro rfl
    cases letter
  rw [← same]
  exact (front.filter _).isInfix

theorem wordOrMark_standsIn (h : (wordOrMark g c cs).1 = some t) : StandsIn (c :: cs) t := by
  unfold wordOrMark at h
  split at h
  · cases h
    exact standsIn_of_partOf? rfl
  split at h
  · cases h
    exact standsIn_of_partOf? rfl
  split at h
  · cases h
    exact ofWord_standsIn ((List.prefix_cons_inj c).mpr (List.takeWhile_prefix _))
  split at h
  · cases h
  · cases h
    exact standsIn_of_partOf? rfl

/-- What starts with a digit or a point is no name of letters. -/
theorem number_standsIn (first : c.isDigit ∨ c = '.') : StandsIn (c :: cs) (number g (c :: cs)).1 := by
  have other : isNameLetter c = false := by
    rcases first with digit | rfl
    · exact Bool.eq_false_iff.mpr fun letter => by simp [not_isDigit_of_isNameLetter letter] at digit
    · rfl
  have head : c ∈ (c :: cs).takeWhile Char.isDigit ++
      (((c :: cs).dropWhile Char.isDigit).takeWhile (· == '.')).take 1 := by
    rcases first with digit | rfl
    · simp [digit]
    · simp [Char.isDigit]
  rw [number_eq]
  simp only
  split
  · exact standsIn_of_partOf? rfl
  simp only [numberPoint]
  split
  · exact standsIn_of_partOf? rfl
  simp only [numberEnd]
  split
  · intro i part letters
    obtain rfl := Option.some.inj part
    rw [letters c (by simp only [String.toList_ofList, List.mem_append] at head ⊢; grind)] at other
    cases other
  · unfold numberMark
    split <;> exact standsIn_of_partOf? rfl

theorem next_standsIn (h : next s c cs = .ok (some t, v)) : StandsIn (c :: cs) t := by
  have behind {n : Nat} (h : StandsIn (cs.drop n) t) : StandsIn (c :: cs) t := by
    intro i part letters
    have left : cs.drop n <:+: c :: cs := ((List.drop_suffix n cs).trans (List.suffix_cons c cs)).isInfix
    exact (h i part letters).trans (left.filter _)
  have marked {kind : StringKind} (other : ∀ text, Parser.partOf? (.string kind text) = none)
      (h : nextMarked s kind cs = .ok (some t, v)) : StandsIn (c :: cs) t := by
    obtain ⟨text, -, made⟩ := quoted_ok h
    rw [Option.some.inj made]
    exact standsIn_of_partOf? (other _)
  -- In the order in which `next` tries them: strings with a mark, other texts in quotes, numbers,
  -- comments, words.
  rw [next_eq] at h
  split at h
  · exact marked (fun _ => rfl) h
  split at h
  · exact marked (fun _ => rfl) h
  unfold nextPlain at h
  split at h
  next quote =>
    unfold string at h
    split at h
    · obtain ⟨text, -, made⟩ := quoted_ok h
      rw [Option.some.inj made]
      exact standsIn_of_partOf? rfl
    · have other : isNameLetter c = false := by
        rcases Bool.or_eq_true_iff.mp quote with single | double
        · rw [beq_iff_eq.mp single]
          rfl
        · rw [beq_iff_eq.mp (Bool.and_eq_true_iff.mp double).1]
          rfl
      refine behind (n := 0) (quoted_standsIn other (fun text i part => ?_) h)
      split at part <;> cases part
      rfl
  split at h
  next quote =>
    have other : isNameLetter (closing c) = false := by
      rcases isNameQuote_cases quote with rfl | rfl | rfl <;> rfl
    refine behind (n := 0) (quoted_standsIn other (fun text i part => ?_) h)
    cases part
    rfl
  split at h
  next digit =>
    obtain ⟨made, -⟩ := Prod.mk.inj (Except.ok.inj h)
    rw [← Option.some.inj made]
    exact number_standsIn (by simpa using digit)
  unfold nextMark at h
  split at h
  · cases h
  split at h
  · split at h <;> cases h
  · exact wordOrMark_standsIn (congrArg Prod.fst (Except.ok.inj h))

/-- **The names in a text.** A word or string of a text, when it is read as a part of a name, is a
name that the text mentions. -/
theorem mentions_of_scan {s : ParserSettings} {text : String} {ts : List Token} {t : Token} {i : Ident}
    (scanned : scan s text = .ok ts) (mem : t ∈ ts) (part : Parser.partOf? t = some i)
    (lettered : IsLettered name) (same : asciiLower i.text = asciiLower name) :
    Mentions name text.toList := by
  have stands : StandsIn text.toList t := by
    refine forall_tokens_of_suffix (P := StandsIn text.toList) (fun left cut i part letters => ?_) scanned t mem
    exact (next_standsIn cut i part letters).trans (left.isInfix.filter _)
  have lower : (asciiLower name).toList = i.text.toList.map Char.toLower := by
    rw [← same, asciiLower, String.toList_map]
  have letters : ∀ c ∈ i.text.toList, isNameLetter c := fun c hc =>
    isNameLetter_of_toLower (lettered _ (lower ▸ List.mem_map_of_mem hc))
  rw [Mentions, lower]
  exact (stands i part letters).map _

end Lexer

end DetectionPlan.Sql
