/-
The bounds of a query, which come one after the other, each or not.
-/
import DetectionPlan.Proofs.Sql.Swap.Expression

namespace DetectionPlan.Sql.Parser

variable {s : ParserSettings} {P : Token → Prop} {R : Call → Option Expr → Prop} {inner inner' : Inner}

/-- The bound that `LIMIT` marks. -/
def limitBound (inner : Inner) (b : Bounds) : Parser Bounds := do
  if b.limit.isNone then
    if ← skipWord .LIMIT then
      if ← skipWord .ALL then return b
      else return { b with limit := some (← inner.expr 0) }
    else return b
  else return b

/-- The bound that `OFFSET` marks. -/
def offsetBound (inner : Inner) (b : Bounds) : Parser Bounds := do
  if b.offset.isNone then
    if ← skipWord .OFFSET then
      let value ← inner.expr 0
      let unit ← oneOf [(.ROW, OffsetUnit.row), (.ROWS, .rows)]
      return { b with offset := some value, offsetUnit := unit.getD .none }
    else return b
  else return b

/-- The bound behind a comma. -/
def commaBound (s : ParserSettings) (inner : Inner) (b : Bounds) : Parser Bounds := do
  if s.grammar.hasLimitComma && b.limit.isSome && b.offset.isNone then
    if ← skipMark .comma then return { b with offset := b.limit, limit := some (← inner.expr 0) }
    else return b
  else return b

theorem bound_eq (b : Bounds) :
    bound s inner b = (do
      let b ← limitBound inner b
      let b ← offsetBound inner b
      commaBound s inner b) := by
  unfold bound
  extract_lets bs ends comma offset
  have comma_eq (b : Bounds) : comma () b = commaBound s inner b := rfl
  have offset_eq (b : Bounds) : offset () b = (offsetBound inner b >>= commaBound s inner) := by
    unfold offsetBound
    by_cases none : b.offset.isNone
    · rw [if_pos none, bind_assoc]
      refine (if_pos none).trans (bind_congr fun found => ?_)
      cases found with
      | false => rfl
      | true =>
        simp only [if_true, bind_assoc, pure_bind]
        rfl
    · rw [if_neg none]
      exact (if_neg none).trans rfl
  unfold limitBound
  by_cases none : b.limit.isNone
  · refine (if_pos none).trans ?_
    rw [if_pos none, bind_assoc]
    refine bind_congr fun found => ?_
    cases found with
    | false => exact offset_eq b
    | true =>
      simp only [if_true, bind_assoc]
      refine bind_congr fun all => ?_
      cases all with
      | true => exact offset_eq b
      | false =>
        simp only [Bool.false_eq_true, if_false, bind_assoc, pure_bind]
        exact bind_congr fun e => offset_eq _
  · refine (if_neg none).trans ?_
    rw [if_neg none]
    exact offset_eq b

/-- Bounds turn when their values do. -/
structure Bounds.Turns (R : Call → Option Expr → Prop) (b b' : Bounds) : Prop where
  limit : Option.Rel (Expr.Turns R) b.limit b'.limit
  offset : Option.Rel (Expr.Turns R) b.offset b'.offset
  unit : b'.offsetUnit = b.offsetUnit

theorem Bounds.stay {b : Bounds} {into : List Token → List Token → Prop} :
    Tracks P (Bounds.Turns R b) (Bounds.Turns R) into into (Pure.pure b) fun b' => Pure.pure b' :=
  .pure fun b' turns => ⟨b', turns, rfl⟩

theorem limitBound_follows (h : inner.Follows s P R inner') (b : Bounds) :
    Tracks P (Bounds.Turns R b) (Bounds.Turns R) (Stops P) (Stops P) (limitBound inner b)
      fun b' => limitBound inner' b' := by
  obtain ⟨limit, offset, unit⟩ := b
  cases limit with
  | some e =>
    refine Bounds.stay.among ?_
    rintro ⟨limit', offset', unit'⟩ ⟨⟨he⟩, ho, hu⟩
    exact ⟨⟨some _, offset', unit'⟩, ⟨.some he, ho, hu⟩, rfl⟩
  | none =>
    have value : Tracks P (Bounds.Turns R ⟨none, offset, unit⟩) (Bounds.Turns R) (Stops P) (Opening s P)
        (do return ⟨some (← inner.expr 0), offset, unit⟩)
        (fun b' => (do return ⟨some (← inner'.expr 0), b'.offset, b'.offsetUnit⟩)) := by
      refine Tracks.bind ((h.expr 0).mono fun _ _ h => h.toOpening) fun e => .pure ?_
      rintro ⟨limit', offset', unit'⟩ ⟨⟨he⟩, ho, hu⟩
      exact ⟨(⟨none, offset', unit'⟩, _), ⟨⟨.none, ho, hu⟩, he⟩, rfl⟩
    have marked : Tracks P (Bounds.Turns R ⟨none, offset, unit⟩) (Bounds.Turns R) (Stops P) (Opening s P)
        (do if ← skipWord .ALL then return ⟨none, offset, unit⟩ else return ⟨some (← inner.expr 0), offset, unit⟩)
        (fun b' => (do
          if ← skipWord .ALL then return b' else return ⟨some (← inner'.expr 0), b'.offset, b'.offsetUnit⟩)) :=
      Tracks.skipWord_bind (Opening.skips rfl) (Bounds.stay.mono fun _ _ h => h.known) value
    have whole : Tracks P (Bounds.Turns R ⟨none, offset, unit⟩) (Bounds.Turns R) (Stops P) (Stops P)
        (limitBound inner ⟨none, offset, unit⟩)
        (fun b' => (do
          if ← skipWord .LIMIT then
            if ← skipWord .ALL then return b' else return ⟨some (← inner'.expr 0), b'.offset, b'.offsetUnit⟩
          else return b')) :=
      Tracks.skipWord_bind (Stops.skips rfl) (marked.mono fun _ _ h => h.known) Bounds.stay
    refine whole.among ?_
    rintro ⟨limit', offset', unit'⟩ ⟨⟨⟩, ho, hu⟩
    exact ⟨⟨none, offset', unit'⟩, ⟨.none, ho, hu⟩, rfl⟩

theorem offsetBound_follows (h : inner.Follows s P R inner') (b : Bounds) :
    Tracks P (Bounds.Turns R b) (Bounds.Turns R) (Stops P) (Stops P) (offsetBound inner b)
      fun b' => offsetBound inner' b' := by
  obtain ⟨limit, offset, unit⟩ := b
  cases offset with
  | some e =>
    refine Bounds.stay.among ?_
    rintro ⟨limit', offset', unit'⟩ ⟨hl, ⟨he⟩, hu⟩
    exact ⟨⟨limit', some _, unit'⟩, ⟨hl, .some he, hu⟩, rfl⟩
  | none =>
    have value : Tracks P (Bounds.Turns R ⟨limit, none, unit⟩) (Bounds.Turns R) (Stops P) (Known P)
        (do
          let value ← inner.expr 0
          let unit ← oneOf [(.ROW, OffsetUnit.row), (.ROWS, .rows)]
          return ⟨limit, some value, unit.getD .none⟩)
        (fun b' => (do
          let value ← inner'.expr 0
          let unit ← oneOf [(.ROW, OffsetUnit.row), (.ROWS, .rows)]
          return ⟨b'.limit, some value, unit.getD .none⟩)) := by
      refine Tracks.bind ((h.expr 0).mono fun _ _ h => h.known) fun e => ?_
      refine Tracks.bind_eq (oneOf_stays (by simp [Keyword.isPaired])) fun found => .pure ?_
      rintro ⟨limit', offset', _⟩ ⟨hl, ⟨he⟩, rfl⟩
      exact ⟨(⟨limit', none, unit⟩, _), ⟨⟨hl, .none, rfl⟩, he⟩, rfl⟩
    have whole : Tracks P (Bounds.Turns R ⟨limit, none, unit⟩) (Bounds.Turns R) (Stops P) (Stops P)
        (offsetBound inner ⟨limit, none, unit⟩)
        (fun b' => (do
          if ← skipWord .OFFSET then
            let value ← inner'.expr 0
            let unit ← oneOf [(.ROW, OffsetUnit.row), (.ROWS, .rows)]
            return ⟨b'.limit, some value, unit.getD .none⟩
          else return b')) := Tracks.skipWord_bind (Stops.skips rfl) value Bounds.stay
    refine whole.among ?_
    rintro ⟨limit', offset', unit'⟩ ⟨hl, ⟨⟩, hu⟩
    exact ⟨⟨limit', none, unit'⟩, ⟨hl, .none, hu⟩, rfl⟩

theorem commaBound_other {b : Bounds}
    (h : ¬ (s.grammar.hasLimitComma ∧ ∃ l, b.limit = some l ∧ b.offset = none)) :
    commaBound s inner b = Pure.pure b := by
  refine if_neg fun all => h ?_
  simp only [Bool.and_eq_true, Option.isSome_iff_exists, Option.isNone_iff_eq_none] at all
  obtain ⟨⟨comma, l, hl⟩, ho⟩ := all
  exact ⟨comma, l, hl, ho⟩

theorem commaBound_follows (h : inner.Follows s P R inner') (b : Bounds) :
    Tracks P (Bounds.Turns R b) (Bounds.Turns R) (Stops P) (Stops P) (commaBound s inner b)
      fun b' => commaBound s inner' b' := by
  obtain ⟨limit, offset, unit⟩ := b
  by_cases main : s.grammar.hasLimitComma ∧ ∃ l, limit = some l ∧ offset = none
  · obtain ⟨comma, l, rfl, rfl⟩ := main
    have whole : Tracks P (Bounds.Turns R ⟨some l, none, unit⟩) (Bounds.Turns R) (Stops P) (Stops P)
        (do if ← skipMark .comma then return ⟨some (← inner.expr 0), some l, unit⟩ else return ⟨some l, none, unit⟩)
        (fun b' => (do
          if ← skipMark .comma then return ⟨some (← inner'.expr 0), b'.limit, b'.offsetUnit⟩ else return b')) := by
      refine Tracks.skipMark_bind (Stops.skipsMark rfl) ?_ Bounds.stay
      refine Tracks.bind ((h.expr 0).mono fun _ _ h => h.known) fun e => .pure ?_
      rintro ⟨limit', offset', unit'⟩ ⟨⟨he⟩, ho, hu⟩
      exact ⟨(⟨offset', none, unit'⟩, _), ⟨⟨ho, .none, hu⟩, he⟩, rfl⟩
    have here : commaBound s inner ⟨some l, none, unit⟩ =
        (do
          if ← skipMark .comma then return ⟨some (← inner.expr 0), some l, unit⟩
          else return ⟨some l, none, unit⟩) := by
      simp [commaBound, comma]
    rw [here]
    refine whole.among ?_
    rintro ⟨limit', offset', unit'⟩ ⟨⟨hl⟩, ⟨⟩, hu⟩
    exact ⟨⟨some _, none, unit'⟩, ⟨.some hl, .none, hu⟩, by simp [commaBound, comma]⟩
  · rw [commaBound_other main]
    refine Bounds.stay.among ?_
    rintro ⟨limit', offset', unit'⟩ ⟨hl, ho, hu⟩
    refine ⟨⟨limit', offset', unit'⟩, ⟨hl, ho, hu⟩, commaBound_other ?_⟩
    rintro ⟨comma, l, rfl, rfl⟩
    obtain ⟨l, rfl⟩ : ∃ l, limit = some l := by cases hl; exact ⟨_, rfl⟩
    obtain rfl : offset = none := by cases ho; rfl
    exact main ⟨comma, l, rfl, rfl⟩

theorem bound_follows (h : inner.Follows s P R inner') (b : Bounds) :
    Tracks P (Bounds.Turns R b) (Bounds.Turns R) (Stops P) (Stops P) (bound s inner b) fun b' => bound s inner' b' := by
  simp only [bound_eq]
  refine Tracks.bind_left (limitBound_follows h b) fun b => ?_
  exact Tracks.bind_left (offsetBound_follows h b) fun b => commaBound_follows h b

/-- Before what does not go on with a query no bound is read. -/
theorem bound_idle {rest : List Token} (limit : skipWord .LIMIT rest = .ok (false, rest))
    (offset : skipWord .OFFSET rest = .ok (false, rest)) : bound s inner {} rest = .ok ({}, rest) := by
  have first : limitBound inner {} rest = .ok ({}, rest) := bind_of_ok limit
  have second : offsetBound inner {} rest = .ok ({}, rest) := bind_of_ok offset
  rw [bound_eq, bind_of_ok first, bind_of_ok second, commaBound]
  simp

end DetectionPlan.Sql.Parser
