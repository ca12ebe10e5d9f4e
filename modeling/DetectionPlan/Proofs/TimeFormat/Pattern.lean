/-
What date patterns are read as. A step of the reader takes one literal character, one quoted text or
one run of a letter (`readIn_plain`, `readIn_between`, `readIn_run`), and the resolution of a pattern
is the finest of the parts it writes (`Fine`).
-/
import DetectionPlan.Proofs.Text.Splitting
import DetectionPlan.Proofs.TimeFormat.Order

namespace DetectionPlan.DatePattern

open Outcome (bind_ok_iff pure_ok_iff)

variable {items : List PatternItem} {finest : Option (Nat × Period)} {steps : Nat} {cs rest : List Char}

/-! ## The finest part -/

theorem fineness?_eq {c : Char} {rank : Nat} {unit : Period} (h : fineness? c = some (rank, unit)) :
    rank < 7 ∧ unit = .unit rank := by
  unfold fineness? at h
  split at h <;> cases h <;> exact ⟨by decide, rfl⟩

/-- A run of a letter writes something about the part that the letter stands for. -/
theorem rank?_field {c : Char} {count : Nat} {item : PatternItem} (h : field? c count = some item) :
    item.rank? = (fineness? c).map (·.1) := by
  unfold field? at h
  split at h <;> cases h <;> (try split) <;> rfl

/-- A part that is no coarser than any part that the items write. -/
structure Fine (items : List PatternItem) (finest : Option (Nat × Period)) : Prop where
  unit : ∀ rank unit, finest = some (rank, unit) → rank < 7 ∧ unit = .unit rank
  bound : ∀ item ∈ items, ∀ i, item.rank? = some i → ∃ rank unit, finest = some (rank, unit) ∧ i ≤ rank

theorem Fine.nil : Fine [] none := ⟨nofun, nofun⟩

theorem Fine.append_text (h : Fine items finest) (literal : List Char) :
    Fine (literal.map .text ++ items) finest := by
  refine ⟨h.unit, fun item hi => ?_⟩
  rcases List.mem_append.mp hi with text | later
  · obtain ⟨c, -, rfl⟩ := List.mem_map.mp text
    exact nofun
  · exact h.bound item later

/-- The finer of two parts is one of them and no coarser than the other. -/
theorem finer_spec {a b : Option (Nat × Period)} :
    (finer a b = a ∨ finer a b = b) ∧ ∀ part, a = some part ∨ b = some part →
      ∃ found, finer a b = some found ∧ part.1 ≤ found.1 := by
  cases a with
  | none =>
    refine ⟨.inr rfl, ?_⟩
    rintro part (h | rfl)
    · cases h
    · exact ⟨part, rfl, le_rfl⟩
  | some a =>
    cases b with
    | none =>
      refine ⟨.inl rfl, ?_⟩
      rintro part (h | h)
      · exact ⟨a, rfl, Nat.le_of_eq (congrArg Prod.fst (Option.some.inj h)).symm⟩
      · cases h
    | some b =>
      unfold finer
      dsimp only
      split
      next less =>
        refine ⟨.inr rfl, fun part h => ⟨b, rfl, ?_⟩⟩
        rcases h with h | h <;> cases h <;> omega
      next notLess =>
        refine ⟨.inl rfl, fun part h => ⟨a, rfl, ?_⟩⟩
        rcases h with h | h <;> cases h <;> omega

theorem Fine.cons_field {c : Char} {count : Nat} {item : PatternItem} (h : Fine items finest)
    (field : field? c count = some item) : Fine (item :: items) (finer (fineness? c) finest) := by
  obtain ⟨one, most⟩ := finer_spec (a := fineness? c) (b := finest)
  refine ⟨fun rank unit found => ?_, fun other ho i hr => ?_⟩
  · rcases one with this | that
    · exact fineness?_eq (this ▸ found)
    · exact h.unit rank unit (that ▸ found)
  · have known : ∃ rank unit, (fineness? c = some (rank, unit) ∨ finest = some (rank, unit)) ∧ i ≤ rank := by
      rcases List.mem_cons.mp ho with rfl | later
      · rw [rank?_field field] at hr
        obtain ⟨⟨rank, unit⟩, found, rfl⟩ := Option.map_eq_some_iff.mp hr
        exact ⟨rank, unit, .inl found, le_rfl⟩
      · obtain ⟨rank, unit, found, le⟩ := h.bound other later i hr
        exact ⟨rank, unit, .inr found, le⟩
    obtain ⟨rank, unit, either, le⟩ := known
    obtain ⟨⟨best, unit'⟩, found, le'⟩ := most (rank, unit) either
    exact ⟨best, unit', found, le.trans le'⟩

theorem fine_of_readIn (h : readIn steps cs = .ok (items, finest)) : Fine items finest := by
  induction steps generalizing cs items finest with
  | zero =>
    cases cs <;> cases h <;> exact .nil
  | succ steps ih =>
    cases cs with
    | nil => cases h; exact .nil
    | cons c rest =>
      unfold readIn at h
      split at h
      next quote =>
        dsimp only at h
        split at h
        · cases h
        · obtain ⟨⟨items, finest⟩, later, h⟩ := bind_ok_iff.mp h
          cases pure_ok_iff.mp h
          exact (ih later).append_text _
      next notQuote =>
        split at h
        next letter =>
          dsimp only at h
          split at h
          · cases h
          next field =>
            obtain ⟨⟨items, finest⟩, later, h⟩ := bind_ok_iff.mp h
            cases pure_ok_iff.mp h
            exact (ih later).cons_field field
        next other =>
          obtain ⟨⟨items, finest⟩, later, h⟩ := bind_ok_iff.mp h
          cases pure_ok_iff.mp h
          exact (ih later).append_text [c]

/-- The resolution of a pattern is a single unit, and no part that the pattern writes is finer. -/
theorem parse_fine {pattern : String} {p : DatePattern} (h : parse pattern = .ok p) :
    ∃ rank < 7, p.resolution = .unit rank ∧ ∀ item ∈ p.items, ∀ i, item.rank? = some i → i ≤ rank := by
  unfold parse at h
  dsimp only at h
  split at h
  · cases h
  · cases h
  next items rank unit found =>
    cases h
    have fine := fine_of_readIn found
    obtain ⟨small, rfl⟩ := fine.unit rank unit rfl
    refine ⟨rank, small, rfl, fun item hi i hr => ?_⟩
    obtain ⟨_, _, same, le⟩ := fine.bound item hi i hr
    cases same
    exact le

/-! ## Steps of the reader -/

theorem readIn_plain {c : Char} (letter : c.isAlpha = false) (quote : c ≠ '\x27')
    (h : readIn steps rest = .ok (items, finest)) :
    readIn (steps + 1) (c :: rest) = .ok (.text c :: items, finest) := by
  rw [readIn, if_neg (by simpa using quote), letter, h]
  rfl

/-- What a text between two quotes writes: itself, or a quote if there is nothing between them. -/
def quotedText (text : List Char) : List Char := if text.isEmpty then ['\x27'] else text

/-- A text between two quotes is read as the characters it writes. -/
theorem readIn_between {text : List Char} (quotes : '\x27' ∉ text)
    (h : readIn steps rest = .ok (items, finest)) :
    readIn (steps + 1) ('\x27' :: (text ++ '\x27' :: rest)) =
      .ok ((quotedText text).map .text ++ items, finest) := by
  have others : ∀ c ∈ text, (c == '\x27') = false := fun c hc => by
    simpa using fun same : c = '\x27' => quotes (same ▸ hc)
  obtain ⟨before, after⟩ := cut_at_first (p := (· == '\x27')) others BEq.rfl rest
  rw [readIn, if_pos BEq.rfl]
  simp only [bne, before, after, h]
  rfl

/-- A run of a letter that another character follows is read as what the letter stands for. -/
theorem readIn_run {c : Char} {count : Nat} {item : PatternItem} (letter : c.isAlpha)
    (field : field? c (count + 1) = some item) (ends : rest.head? ≠ some c)
    (h : readIn steps rest = .ok (items, finest)) :
    readIn (steps + 1) (List.replicate (count + 1) c ++ rest) =
      .ok (item :: items, finer (fineness? c) finest) := by
  have quote : c ≠ '\x27' := by
    intro same
    rw [same] at letter
    cases letter
  have run : ∀ d ∈ List.replicate count c, (d == c) = true := fun d hd => by
    rw [List.eq_of_mem_replicate hd]
    exact BEq.rfl
  have none : rest.takeWhile (· == c) = [] ∧ rest.dropWhile (· == c) = rest := by
    cases rest with
    | nil => exact ⟨rfl, rfl⟩
    | cons d rest =>
      have other : d ≠ c := by simpa using ends
      simp [other]
  rw [List.replicate_succ, List.cons_append, readIn, if_neg (by simpa using quote), if_pos letter]
  simp only [List.takeWhile_append_of_pos run, List.dropWhile_append_of_pos run, none.1, none.2,
    List.append_nil, List.length_replicate, field, h]
  rfl

end DetectionPlan.DatePattern
