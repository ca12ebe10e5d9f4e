/-
Lists, names and types that follow a tree as it turns into another.
-/
import DetectionPlan.Proofs.Sql.Swap.Core

namespace DetectionPlan.Sql.Parser

variable {α β γ : Type} {P : Token → Prop} {A : γ → Prop} {T : α → α → Prop}
  {out into : List Token → List Token → Prop}

theorem Tracks.of_ok {p : Parser α} {r p' : γ → Parser α} (h : Tracks P A T out into p r)
    (again : ∀ c ts a, r c ts = .ok a → p' c ts = .ok a) : Tracks P A T out into p p' := by
  intro ts rest a hp known
  refine ⟨(h hp known).1, fun a' ha rest' hr => ?_⟩
  obtain ⟨c, hc, ts', hts, hq⟩ := (h hp known).2 ha hr
  exact ⟨c, hc, ts', hts, again c ts' _ hq⟩

theorem Stays.pure (a : α) : Stays P into into (Pure.pure a) := Tracks.pure fun _ e => ⟨(), trivial, e⟩

theorem Stays.fail : Stays P out into (Parser.fail : Parser α) := Tracks.fail

theorem Stays.bind {mid : List Token → List Token → Prop} {p : Parser α} {f : α → Parser β} (hp : Stays P mid into p)
    (hf : ∀ a, Stays P out mid (f a)) : Stays P out into (p >>= f) := Tracks.bind_eq hp hf

theorem Stays.take_bind {f : Token → Parser α} (hf : ∀ t, Stays P out (Alike P) (f t)) :
    Stays P out (Alike P) (take >>= f) :=
  Tracks.take_bind fun t ht => (hf t).mono fun _ _ h => h.cons ht

theorem Stays.skipWord_bind {k : Keyword} {f : Bool → Parser α} (hk : Skips P k into)
    (yes : Stays P out (Known P) (f true)) (no : Stays P out into (f false)) :
    Stays P out into (skipWord k >>= f) := Tracks.skipWord_bind hk yes no

theorem Stays.peek_bind {f : Option Token → Parser α} (h : ∀ t, Stays P out (Alike P) (f t)) :
    Stays P out (Alike P) (peek >>= f) := Tracks.peek_bind Alike.first h

theorem Stays.ite {C : Prop} [Decidable C] {p q : Parser α} (hp : Stays P out into p) (hq : Stays P out into q) :
    Stays P out into (if C then p else q) := Tracks.ite hp hq

theorem after_stays {k : Keyword} {p : Parser α} (hk : Skips P k out) (h : Stays P out (Known P) p) :
    Stays P out out (after k p) :=
  Stays.skipWord_bind hk (h.bind fun _ => Stays.pure _) (Stays.pure _)

/-! ## Lists -/

/-- Whether a token, or the end, ends a list. -/
def endsListAt : Option Token → Bool
  | none => true
  | some (.word _ (some k)) => k.endsResult
  | some (.mark m) => m == .rightParen || m == .semicolon || m == .rightBracket || m == .rightBrace
  | some _ => false

theorem atListEnd_apply (ts : List Token) : atListEnd ts = .ok (endsListAt ts.head?, ts) := by
  rw [atListEnd, bind_of_ok peek_apply]
  cases ts.head? with
  | none => rfl
  | some t =>
    cases t with
    | word name k => cases k <;> rfl
    | _ => rfl

/-- What may stand behind the items of a list. -/
structure Behind (P : Token → Prop) (out : List Token → List Token → Prop) : Prop where
  comma : SkipsMark P .comma out
  first {ts ts' : List Token} (h : out ts ts') : ts'.head? = ts.head?
  known {ts ts' : List Token} (h : out ts ts') : Known P ts ts'

theorem Alike.behind : Behind P (Alike P) := ⟨Alike.skipsMark, Alike.first, Alike.known⟩

theorem Stops.behind : Behind P (Stops P) := ⟨Stops.skipsMark rfl, fun h => h.first, fun h => h.known⟩

/-- A list ends, or goes on with another item. -/
theorem endsList_bind {trailing : Bool} {B : β → β → Prop} {f : Bool → Parser β} {f' : γ → Bool → Parser β}
    (behind : Behind P out) (known : ∀ {ts ts'}, into ts ts' → Known P ts ts')
    (goes : ∀ {ts ts'}, into ts ts' → trailing → endsListAt ts.head? = false → endsListAt ts'.head? = false)
    (yes : Tracks P A B out out (f true) fun c => f' c true)
    (no : Tracks P A B out into (f false) fun c => f' c false) :
    Tracks P A B out out (endsList trailing >>= f) fun c => endsList trailing >>= f' c := by
  simp only [endsList, bind_assoc]
  refine Tracks.skipMark_bind behind.comma ?_ (by simpa using yes)
  cases trailing with
  | false => simpa using no.mono fun _ _ h => known h
  | true =>
    intro ts rest b hp hk
    simp only [if_true] at hp ⊢
    rw [bind_of_ok (atListEnd_apply ts)] at hp
    cases ends : endsListAt ts.head? with
    | true =>
      rw [ends] at hp
      refine ⟨(yes hp hk).1, fun b' hb rest' hr => ?_⟩
      obtain ⟨c, hc, ts', hts, again⟩ := (yes hp hk).2 hb hr
      refine ⟨c, hc, ts', behind.known hts, (bind_of_ok (atListEnd_apply ts')).trans ?_⟩
      rw [behind.first hts, ends]
      exact again
    | false =>
      rw [ends] at hp
      refine ⟨(no hp hk).1, fun b' hb rest' hr => ?_⟩
      obtain ⟨c, hc, ts', hts, again⟩ := (no hp hk).2 hb hr
      refine ⟨c, hc, ts', known hts, (bind_of_ok (atListEnd_apply ts')).trans ?_⟩
      rw [goes hts rfl ends]
      exact again

/-- A list is its first item, and the list of those behind it. -/
theorem commaSeparated_of_unfolded {trailing : Bool} {item item' : Parser α} (h : Local 0 0 true item item')
    {ts : List Token} {r : List α × List Token}
    (read : (do
      let first ← item
      if ← endsList trailing then return [first] else return first :: (← commaSeparated trailing item) :
        Parser (List α)) ts = .ok r) : commaSeparated trailing item ts = .ok r := by
  obtain ⟨rs, left⟩ := r
  obtain ⟨first, mid, hf, read⟩ := bind_eq_ok_iff.mp read
  obtain ⟨last, rest, he, read⟩ := bind_eq_ok_iff.mp read
  have fewer := h.takes_lt hf
  obtain ⟨n, hn⟩ : ∃ n, ts.length = n + 1 := ⟨ts.length - 1, by omega⟩
  rw [commaSeparated, get_bind_apply, hn]
  refine (bind_of_ok hf).trans ((bind_of_ok he).trans ?_)
  cases last with
  | true => exact read
  | false =>
    obtain ⟨more, left', hm, made⟩ := bind_eq_ok_iff.mp read
    have fewer' := (commaSeparated_local (b := true) h).takes_lt hm
    have shorter := endsList_false_lt he
    have same : commaSeparatedIn trailing item n rest = commaSeparated trailing item rest :=
      commaSeparatedIn_enough h (by omega) (by omega) (by omega) (Nat.le_refl _)
    exact (bind_congr_left same).trans read

/-- A list follows when its items do, which are read with more depth. -/
theorem commaSeparated_follows {trailing : Bool} {item item' : Parser α} (behind : Behind P out)
    (known : ∀ {ts ts'}, into ts ts' → Known P ts ts')
    (goes : ∀ {ts ts'}, into ts ts' → trailing → endsListAt ts.head? = false → endsListAt ts'.head? = false)
    (local_ : Local 0 0 true item' item') (h : Follows P T out into item item') :
    Follows P (List.Forall₂ T) out into (commaSeparated trailing item) (commaSeparated trailing item') := by
  have some (n : Nat) : Follows P (List.Forall₂ T) out into (commaSeparatedIn trailing item n)
      (commaSeparated trailing item') := by
    induction n with
    | zero => exact .fail
    | succ n ih =>
      refine Tracks.of_ok (r := fun _ => do
        let first ← item'
        if ← endsList trailing then return [first] else return first :: (← commaSeparated trailing item'))
        ?_ fun _ _ _ => commaSeparated_of_unfolded local_
      refine Tracks.bind h fun a => endsList_bind behind known goes (.pure ?_) (Tracks.bind ih fun as => .pure ?_)
      · rintro _ (_ | ⟨ha, ⟨⟩⟩)
        exact ⟨((), _), ⟨trivial, ha⟩, rfl⟩
      · rintro _ (_ | ⟨ha, has⟩)
        exact ⟨(((), _), _), ⟨⟨trivial, ha⟩, has⟩, rfl⟩
  exact Tracks.get_bind fun ts rest as hp hk => some ts.length hp hk

/-- The same for what stays. -/
theorem commaSeparated_stays {trailing : Bool} {item : Parser α} (local_ : Local 0 0 true item item)
    (h : Stays P (Alike P) (Alike P) item) : Stays P (Alike P) (Alike P) (commaSeparated trailing item) := by
  have list : Follows P (List.Forall₂ Eq) (Alike P) (Alike P) (commaSeparated trailing item)
      (commaSeparated trailing item) :=
    commaSeparated_follows Alike.behind Alike.known (fun h _ ends => h.first ▸ ends) local_ h
  intro ts rest as hp known
  refine ⟨(list hp known).1, fun as' same rest' hr => (list hp known).2 ?_ hr⟩
  exact same ▸ List.forall₂_refl as

/-! ## Names -/

theorem ident_stays : Stays P (Alike P) (Alike P) ident := by
  refine .take_bind fun t => ?_
  cases t with
  | word name k => exact .pure _
  | string kind text =>
    cases kind with
    | single | double => exact .pure _
    | national | hex | triple => exact .fail
  | number | mark | other => exact .fail

/-- Names with points between them, as many as there are. -/
def pointSeparated : Parser (List Ident) := do pointSeparatedIn (← get).length

theorem pointSeparated_of_unfolded {ts : List Token} {r : List Ident × List Token}
    (read : (do
      let first ← ident
      if ← skipMark .period then return first :: (← pointSeparated) else return [first] : Parser (List Ident)) ts =
        .ok r) : pointSeparated ts = .ok r := by
  obtain ⟨parts, left⟩ := r
  obtain ⟨first, mid, hf, read⟩ := bind_eq_ok_iff.mp read
  obtain ⟨more, rest, hm, read⟩ := bind_eq_ok_iff.mp read
  have fewer := (ident_local (i := 0)).takes_lt hf
  have fewer' := skipMark_length hm
  obtain ⟨n, hn⟩ : ∃ n, ts.length = n + 1 := ⟨ts.length - 1, by omega⟩
  rw [pointSeparated, get_bind_apply, hn]
  refine (bind_of_ok hf).trans ((bind_of_ok hm).trans ?_)
  cases more with
  | false => exact read
  | true =>
    have same : pointSeparatedIn n rest = pointSeparated rest := pointSeparatedIn_enough (by omega) (Nat.le_refl _)
    exact (bind_congr_left same).trans read

theorem pointSeparated_stays : Stays P (Alike P) (Alike P) pointSeparated := by
  have some (n : Nat) : Follows P Eq (Alike P) (Alike P) (pointSeparatedIn n) pointSeparated := by
    induction n with
    | zero => exact .fail
    | succ n ih =>
      refine Tracks.of_ok (r := fun _ => do
        let first ← ident
        if ← skipMark .period then return first :: (← pointSeparated) else return [first])
        ?_ fun _ _ _ => pointSeparated_of_unfolded
      refine Tracks.bind_eq ident_stays fun first => Tracks.skipMark_bind Alike.skipsMark ?_ (Stays.pure _)
      exact Tracks.bind_eq (ih.mono fun _ _ h => h.known) fun rest => Stays.pure _
  exact Tracks.get_bind fun ts rest as hp hk => some ts.length hp hk

theorem tableName_eq (g : Grammar) :
    tableName g = (do
      let parts ← pointSeparated
      if g.splitsQuotedNames then return parts.flatMap fun i => (i.text.splitOn ".").map fun text => ⟨text, i.quote⟩
      else return parts) := by
  rw [tableName, pointSeparated, bind_assoc]

theorem tableName_stays (g : Grammar) : Stays P (Alike P) (Alike P) (tableName g) := by
  rw [tableName_eq]
  exact Stays.bind pointSeparated_stays fun _ => .ite (.pure _) (.pure _)

theorem columnNames_stays (trailing : Bool) : Stays P (Alike P) (Alike P) (columnNames trailing) := by
  have names : Stays P (Stops P) (Known P) (commaSeparated trailing ident) :=
    ((commaSeparated_stays ident_local ident_stays).mono fun _ _ h => h.known).mono_out fun _ _ h => h.toAlike
  exact .peek_bind fun _ => .ite ((parenthesised_tracks Alike.skipsMark names).mono_out fun _ _ h => h.known) (.pure _)

/-- Where a name for what was read may come first. -/
structure Labels (P : Token → Prop) (into : List Token → List Token → Prop) : Prop where
  cons {t : Token} {ts ts' : List Token} (ht : P t) (h : Alike P ts ts') (plain : ∀ m, t ≠ .mark m) :
    into (t :: ts) (t :: ts')
  first {ts ts' : List Token} (h : into ts ts') : ts'.head? = ts.head?

theorem Alike.labels : Labels P (Alike P) := ⟨fun ht h _ => h.cons ht, Alike.first⟩

theorem Stops.labels : Labels P (Stops P) :=
  ⟨fun ht h plain => .cons ht h fun m e => absurd e (plain m), fun h => h.first⟩

/-- The name that a token gives to what stands before it, behind `AS` or without it. -/
def labelOf? (ends : Keyword → Bool) (marked : Bool) : Token → Option Ident
  | .word name k => if marked || !k.any ends then some name else none
  | .string .single text => some ⟨text, some '\x27'⟩
  | .string .double text => some ⟨text, some '"'⟩
  | _ => none

/-- The name that comes first, behind `AS` or without it. -/
def labelAt (ends : Keyword → Bool) (marked : Bool) : Parser (Option Ident) := do
  match (← peek).bind (labelOf? ends marked) with
  | some name =>
    discard take
    return some name
  | none => if marked then fail else return none

theorem label_eq (ends : Keyword → Bool) : label ends = skipWord .AS >>= labelAt ends := by
  funext ts
  refine bind_congr_of_ok fun marked mid _ => ?_
  rw [get_bind_apply, labelAt, bind_of_ok peek_apply]
  match mid with
  | [] => rfl
  | .word name k :: rest =>
    cases marked with
    | true => rfl
    | false =>
      simp only [List.head?_cons, Option.bind_some, labelOf?, Bool.false_or]
      cases k.any ends <;> rfl
  | .string kind text :: rest => cases kind <;> cases marked <;> rfl
  | .number .. :: rest | .mark _ :: rest | .other _ :: rest => cases marked <;> rfl

theorem labelOf?_plain {ends : Keyword → Bool} {marked : Bool} {t : Token} {name : Ident}
    (h : labelOf? ends marked t = some name) (m : Mark) : t ≠ .mark m := by
  rintro rfl
  cases h

theorem labelAt_bind {ends : Keyword → Bool} {marked : Bool} {B : β → β → Prop} {f : Option Ident → Parser β}
    {f' : γ → Option Ident → Parser β} (labels : Labels P into)
    (yes : ∀ name, Tracks P A B out (Alike P) (f (some name)) fun c => f' c (some name))
    (no : marked = false → Tracks P A B out into (f none) fun c => f' c none) :
    Tracks P A B out into (labelAt ends marked >>= f) fun c => labelAt ends marked >>= f' c := by
  refine Tracks.of_first labels.first fun first => ?_
  cases hl : first.bind (labelOf? ends marked) with
  | none =>
    have idle {g : Option Ident → Parser β} {ts : List Token} (hts : ts.head? = first) :
        (labelAt ends marked >>= g) ts = ((if marked then fail else Pure.pure none) >>= g) ts := by
      rw [labelAt, bind_assoc, bind_of_ok peek_apply, hts, hl]
    refine .keeps _ _ ?_ fun ts hts => ⟨idle hts, fun c => idle hts⟩
    cases marked with
    | true => exact Tracks.fail
    | false => exact no rfl
  | some name =>
    obtain ⟨t, rfl, named⟩ := Option.bind_eq_some_iff.mp hl
    have taken {g : Option Ident → Parser β} {ts : List Token} :
        (labelAt ends marked >>= g) (t :: ts) = g (some name) ts := by
      rw [labelAt, bind_assoc, bind_of_ok peek_apply, List.head?_cons, hl]
      rfl
    refine .eats t _ _ rfl (fun ht => (yes name).mono fun _ _ h => ?_) fun ts => ⟨taken, fun c => taken⟩
    exact labels.cons ht h (labelOf?_plain named)

/-- A name stands or it does not. -/
theorem label_bind {ends : Keyword → Bool} {B : β → β → Prop} {f : Option Ident → Parser β}
    {f' : γ → Option Ident → Parser β} (labels : Labels P into) (hk : Skips P .AS into)
    (yes : ∀ name, Tracks P A B out (Alike P) (f (some name)) fun c => f' c (some name))
    (no : Tracks P A B out into (f none) fun c => f' c none) :
    Tracks P A B out into (label ends >>= f) fun c => label ends >>= f' c := by
  simp only [label_eq, bind_assoc]
  refine Tracks.skipWord_bind hk ?_ (labelAt_bind labels yes fun _ => no)
  have marked : Tracks P A B out (Alike P) (labelAt ends true >>= f) fun c => labelAt ends true >>= f' c :=
    labelAt_bind Alike.labels yes nofun
  exact marked.mono fun _ _ h => h.known

theorem tableLabel_stays (trailing : Bool) : Stays P (Stops P) (Stops P) (tableLabel trailing) := by
  refine label_bind Stops.labels (Stops.skips rfl) (fun name => ?_) (Stays.pure _)
  exact ((columnNames_stays trailing).bind fun _ => Stays.pure _).mono_out fun _ _ h => h.toAlike

/-! ## Types and choices -/

theorem typeArgument_stays : Stays P (Alike P) (Alike P) typeArgument := by
  refine .take_bind fun t => ?_
  cases t with
  | word name k =>
    cases k with
    | none => exact .pure _
    | some k => exact .fail
  | number digits long => exact .pure _
  | string | mark | other => exact .fail

theorem dataType_stays : Stays P (Alike P) (Alike P) dataType := by
  rw [dataType_eq]
  have items : Stays P (Stops P) (Known P) (commaSeparated false typeArgument) :=
    ((commaSeparated_stays typeArgument_local typeArgument_stays).mono fun _ _ h => h.known).mono_out
      fun _ _ h => h.toAlike
  refine ident_stays.bind fun name => Stays.bind ?_ fun arguments => Stays.pure _
  exact .peek_bind fun _ => .ite ((parenthesised_tracks Alike.skipsMark items).mono_out fun _ _ h => h.known) (.pure _)

/-- A choice is made or it is not. -/
theorem oneOf_bind {choices : List (Keyword × α)} {B : β → β → Prop} {f : Option α → Parser β}
    {f' : γ → Option α → Parser β} (same : ∀ {ts ts'}, into ts ts' → ts'.head? = ts.head?)
    (hk : ∀ c ∈ choices, Skips P c.1 into)
    (yes : ∀ a, Tracks P A B out (Known P) (f (some a)) fun c => f' c (some a))
    (no : Tracks P A B out into (f none) fun c => f' c none) :
    Tracks P A B out into (oneOf choices >>= f) fun c => oneOf choices >>= f' c := by
  refine Tracks.of_first same fun first => ?_
  cases hl : (wordOf? first).bind fun k => choices.lookup k with
  | none =>
    have idle {g : Option α → Parser β} {ts : List Token} (hts : ts.head? = first) :
        (oneOf choices >>= g) ts = g none ts := by
      rw [oneOf, bind_assoc, bind_of_ok peekWord_apply, hts, hl]
      rfl
    exact .keeps _ _ no fun ts hts => ⟨idle hts, fun c => idle hts⟩
  | some a =>
    obtain ⟨k, word, found⟩ := Option.bind_eq_some_iff.mp hl
    match first, word with
    | some (.word name _), rfl =>
      have taken {g : Option α → Parser β} {ts : List Token} :
          (oneOf choices >>= g) (.word name (some k) :: ts) = g (some a) ts := by
        rw [oneOf, bind_assoc, bind_of_ok peekWord_apply, List.head?_cons, hl]
        rfl
      refine .eats _ _ _ rfl (fun ht => (yes a).mono fun _ _ h => ?_) fun ts => ⟨taken, fun c => taken⟩
      obtain ⟨l₁, l₂, rfl, -⟩ := List.lookup_eq_some_iff.mp found
      exact (hk (k, a) (by simp)).word ht h

theorem oneOf_stays {choices : List (Keyword × α)} (single : ∀ c ∈ choices, c.1.isPaired = false) :
    Stays P (Stops P) (Stops P) (oneOf choices) := by
  have taken : Stays P (Stops P) (Stops P) (oneOf choices >>= Pure.pure) :=
    oneOf_bind (fun h => h.first) (fun c hc => Stops.skips (single c hc))
      (fun a => (Stays.pure _).mono fun _ _ h => h.known) (Stays.pure _)
  rwa [bind_pure] at taken

end DetectionPlan.Sql.Parser
