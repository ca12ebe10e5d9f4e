/-
The full form of a time format. A pattern is looked for behind the first word that introduces one,
which in the full form is the one that was written, whatever the pattern holds. So a format that a
text is read as is what its full form is read as (`parse_canonical_of_parse`).
-/
import DetectionPlan.Proofs.Outcome
import DetectionPlan.Proofs.Text.Splitting
import DetectionPlan.TimeFormat.Basic

namespace DetectionPlan

/-! ## Texts cut off -/

/-- The last character left of a text is of another kind than what was dropped. -/
theorem not_of_getLast?_trimBy {p : Char → Bool} {cs : List Char} {c : Char}
    (h : (trimBy p cs).getLast? = some c) : p c = false := by
  rw [trimBy, List.getLast?_reverse] at h
  have stops := List.head?_dropWhile_not p (cs.dropWhile p).reverse
  rw [h] at stops
  simpa using stops

/-- A text is what stands before the first occurrence of a word, the word, and what stands after it. -/
theorem eq_of_cutAt? {word cs before after : List Char} (h : cutAt? word cs = some (before, after)) :
    cs = before ++ (word ++ after) := by
  induction cs generalizing before with
  | nil =>
    unfold cutAt? at h
    split at h
    next empty =>
      obtain ⟨rfl, rfl⟩ := Prod.mk.inj (Option.some.inj h)
      simpa using empty
    · cases h
  | cons c rest ih =>
    unfold cutAt? at h
    split at h
    next here =>
      obtain ⟨rfl, rfl⟩ := Prod.mk.inj (Option.some.inj h)
      obtain ⟨left, split⟩ := List.isPrefixOf_iff_prefix.mp here
      simp [← split]
    next later =>
      obtain ⟨⟨before', after'⟩, cut, made⟩ := Option.map_eq_some_iff.mp h
      obtain ⟨rfl, rfl⟩ := Prod.mk.inj made
      rw [ih cut, List.cons_append]

namespace TimeFormat

variable {text pattern : String} {f : TimeFormat}

/-! ## What is read -/

/-- A format whose pattern, if it has one, is not empty and does not end in a blank. -/
def IsTrimmed : TimeFormat → Prop
  | epoch _ => True
  | date pattern => pattern ≠ "" ∧ ∀ c ∈ pattern.toList.getLast?, isBlank c = false

/-- A pattern stands at the end of the format that it is taken from. -/
theorem suffix_of_pattern? {format found : List Char} (h : pattern? format = some found) :
    found <:+ format := by
  unfold pattern? at h
  split at h
  next cut =>
    obtain rfl := Option.some.inj h
    exact ⟨patternWord.toList, (eq_of_cutAt? cut).symm⟩
  next before found' _ cut =>
    split at h
    · obtain rfl := Option.some.inj h
      exact ⟨before ++ patternWord.toList, by rw [eq_of_cutAt? cut, List.append_assoc]⟩
    · cases h
  · cases h

theorem epoch_of_epochForm? {format : String} (h : epochForm? format = some (.ok f)) : ∃ unit, f = epoch unit := by
  unfold epochForm? at h
  split at h
  · split at h
    · split at h
      · cases h
      next unit known =>
        split at h
        · cases h
          exact ⟨unit, rfl⟩
        · cases h
    · cases h
  · cases h

/-- A text is read as a trimmed format. -/
theorem isTrimmed_of_parse (h : parse text = .ok f) : f.IsTrimmed := by
  have ends {rest : List Char} (suffix : rest <:+ (trim text).toList) : ∀ c ∈ rest.getLast?, isBlank c = false := by
    intro c hc
    obtain ⟨front, split⟩ := suffix
    have last : (trimBy isBlank text.toList).getLast? = some c := by
      rw [trim, String.toList_ofList] at split
      rw [← split, List.getLast?_append, Option.mem_def.mp hc, Option.some_or]
    exact not_of_getLast?_trimBy last
  unfold parse at h
  dsimp only at h
  split at h
  · cases h
  next filled =>
    split at h
    · cases h
      trivial
    split at h
    · cases h
      trivial
    split at h
    · cases h
    next found some cut =>
      -- A pattern is cut from the end of the trimmed text.
      cases h
      have filled : String.ofList found ≠ "" := fun empty => some (by simpa using empty)
      exact ⟨filled, by simpa using ends (suffix_of_pattern? cut)⟩
    next none =>
      cases form : epochForm? (trim text) with
      | none =>
        rw [form] at h
        cases h
        exact ⟨by simpa using filled, ends List.suffix_rfl⟩
      | some read =>
        rw [form] at h
        obtain rfl : read = .ok f := h
        obtain ⟨unit, rfl⟩ := epoch_of_epochForm? form
        trivial

/-! ## What is written -/

/-- Whatever the pattern holds, the first word that introduces one is the one that was written. -/
theorem pattern?_full (pattern : List Char) :
    pattern? ("1:DAYS:".toList ++ (patternWord.toList ++ pattern)) = some pattern := rfl

/-- A trimmed pattern is read back from its full form. -/
theorem parse_canonical_date (h : (date pattern).IsTrimmed) : parse (date pattern).canonical = .ok (date pattern) := by
  obtain ⟨given, last⟩ := h
  have filled : pattern.toList ≠ [] := by simpa using given
  have full : (date pattern).canonical.toList = "1:DAYS:".toList ++ (patternWord.toList ++ pattern.toList) := by
    simp [canonical, String.toList_append]
  have first : (date pattern).canonical.toList.head? = some '1' := by
    rw [full]
    rfl
  have other (word : String) (h : word.toList.head? ≠ some '1') : (date pattern).canonical ≠ word :=
    fun same => h (same ▸ first)
  have kept : trim (date pattern).canonical = (date pattern).canonical := by
    have starts : ∀ c ∈ (date pattern).canonical.toList.head?, isBlank c = false := by
      rw [first]
      rintro c ⟨⟩
      rfl
    have ends : ∀ c ∈ (date pattern).canonical.toList.getLast?, isBlank c = false := by
      rwa [full, ← List.append_assoc, List.getLast?_append_of_ne_nil _ filled]
    have some : (date pattern).canonical.toList ≠ [] := fun none => by
      rw [none] at first
      cases first
    have whole : trimBy isBlank ([] ++ (date pattern).canonical.toList ++ []) = (date pattern).canonical.toList :=
      trimBy_append nofun nofun some starts ends
    rw [List.nil_append, List.append_nil] at whole
    rw [trim, whole, String.ofList_toList]
  have found := pattern?_full pattern.toList
  rw [← full] at found
  unfold parse
  dsimp only
  rw [kept]
  simp only [beq_iff_eq, other "" (by decide), other "EPOCH_MILLIS" (by decide), other "EPOCH" (by decide),
    if_false, found]
  rw [String.ofList_toList]

/-- **Full forms are read back.** Of every text that is read as a format, the full form of the format
is read as that format. -/
theorem parse_canonical_of_parse (h : parse text = .ok f) : parse f.canonical = .ok f := by
  cases f with
  | epoch unit => cases unit <;> exact Outcome.ok_of_toOption (by decide +kernel)
  | date pattern => exact parse_canonical_date (isTrimmed_of_parse h)

/-- A pattern with colons, blanks and all the words of formats in it. -/
def lookalike : TimeFormat := date " 2:DAYS:SIMPLE_DATE_FORMAT:EPOCH yyyy:EPOCH"

theorem parse_canonical_of_parse_lookalike :
    parse " 12:HOURS:SIMPLE_DATE_FORMAT: 2:DAYS:SIMPLE_DATE_FORMAT:EPOCH yyyy:EPOCH " = .ok lookalike ∧
      lookalike.canonical = "1:DAYS:SIMPLE_DATE_FORMAT: 2:DAYS:SIMPLE_DATE_FORMAT:EPOCH yyyy:EPOCH" ∧
      parse lookalike.canonical = .ok lookalike := by
  have read : parse " 12:HOURS:SIMPLE_DATE_FORMAT: 2:DAYS:SIMPLE_DATE_FORMAT:EPOCH yyyy:EPOCH " = .ok lookalike :=
    Outcome.ok_of_toOption (by decide +kernel)
  exact ⟨read, by decide +kernel, parse_canonical_of_parse read⟩

end TimeFormat

end DetectionPlan
