/-
What calls leave behind that are not replaced. A placeholder function has written the properties of the
request when its text turns out not to be one of an expression. The statement is then as if the call were
one of any other function; the properties are not, unless others write all of them
(`unread_call_leaves_properties`).
-/
import DetectionPlan.Proofs.Expansion.Strictness
import DetectionPlan.Proofs.Keyed

namespace DetectionPlan

open Sql (Call Expr Statement Simulation)
open Outcome (bind_ok_iff map_ok_iff)

/-! ## Work that does not look at properties -/

/-- Work that writes properties, the same whatever properties there are. -/
def IsBlind {α : Type} (w : Preparing α) : Prop :=
  ∃ r : Outcome (α × List (String × String)), ∀ given,
    w.run given = r.map fun (a, es) => (a, given.insertAll es)

namespace IsBlind

variable {α β : Type}

theorem throw (e : Failure) : IsBlind (throw e : Preparing α) := ⟨.error e, fun _ => rfl⟩

theorem lift (x : Outcome α) : IsBlind (x : Preparing α) := by
  refine ⟨x.map (·, []), fun given => ?_⟩
  cases x <;> rfl

theorem write (key : PropertyKey) (value : String) : IsBlind (writeProperty key value) :=
  ⟨.ok ((), [(key.name, value)]), fun _ => rfl⟩

theorem bind {w : Preparing α} {k : α → Preparing β} (first : IsBlind w) (next : ∀ a, IsBlind (k a)) :
    IsBlind (w >>= k) := by
  obtain ⟨r, ran⟩ := first
  cases r with
  | error e => exact ⟨.error e, fun given => by rw [StateT.run_bind, ran]; rfl⟩
  | ok made =>
    obtain ⟨a, es⟩ := made
    obtain ⟨r', ran'⟩ := next a
    refine ⟨r'.map fun (b, fs) => (b, es ++ fs), fun given => ?_⟩
    rw [StateT.run_bind, ran]
    refine (ran' _).trans ?_
    cases r' with
    | error e => rfl
    | ok made => simp [Except.map, Keyed.insertAll, List.foldl_append]

end IsBlind

/-- Placeholder functions that do not look at properties. -/
def PlaceholderRegistry.IsBlind (r : PlaceholderRegistry) : Prop :=
  ∀ p ∈ r.entries, ∀ s texts, DetectionPlan.IsBlind (p.expand s texts)

namespace Placeholder

theorem isBlind_filterColumn (s : RequestScope) (column : String) (fromStart fromStop : Option String) :
    DetectionPlan.IsBlind (filterColumn s column fromStart fromStop) := by
  refine .bind (.lift _) fun _ => .bind (.lift _) fun _ => .bind (.lift _) fun _ => .bind (.write _ _) fun _ =>
    .bind (.write _ _) fun _ => .bind (.write _ _) fun _ => ?_
  split
  · exact .bind (.lift _) fun _ => .lift _
  · exact .lift _

/-- The placeholder functions that every request knows do not look at properties. -/
theorem isBlind_builtin : PlaceholderRegistry.builtin.IsBlind := by
  intro p known s texts
  rcases List.mem_cons.mp known with rfl | known
  · simp only [timeFilter]
    split
    · exact isBlind_filterColumn s _ none none
    · exact isBlind_filterColumn s _ _ none
    · exact isBlind_filterColumn s _ _ _
    · exact .throw _
  · obtain rfl := List.mem_singleton.mp known
    simp only [timeGroup]
    split
    · exact .bind (.lift _) fun _ => .bind (.write _ _) fun _ => .lift _
    · exact .throw _

end Placeholder

namespace Expansion

/-! ## Calls that are spared -/

variable (x : Expansion)

/-- The text that a call becomes is none of an expression. -/
def Unread (n : Note) : Prop := ∃ fault, x.reading n = .error fault

/-- The properties of a request after a call. -/
def leave (given : Properties) (n : Note) : Properties :=
  match x.registry.get? n.name with
  | none => given
  | some p =>
    match (p.expand x.scope n.texts).run given with
    | .ok (_, left) => left
    | .error _ => given

/-- The properties that calls write one after the other. -/
def recorded (notes : List Note) : Properties := notes.foldl x.leave .empty

/-- Replace a call unless so many others have been met before. -/
def spareIf (place : Nat) (e : Expr) : StateT Nat Preparing Expr := do
  let met ← getModify (· + 1)
  if met = place then return e else x.step e

/-- Replace an expression unless it is the call of a placeholder function in a place among them. -/
def stepSparing (place : Nat) (e : Expr) : StateT Nat Preparing Expr :=
  match e with
  | .call c =>
    match x.callee? c with
    | none => return e
    | some _ => x.spareIf place e
  | _ => return e

/-- Prepare a query of which a call is taken for one of any other function. -/
def prepareSparing (place : Nat) (query : String) : Outcome PreparedRequest := do
  let s ← x.parser.parseStatement query
  let ((t, _), left) ← ((s.replace (x.stepSparing place)).run 0).run .empty
  return x.sent (t, left)

variable {x} {e : Expr} {n : Note} {before notes : List Note} {given left : Properties} {place : Nat}

theorem meet_none (place : Nat) (met : (x.meet e).run given = .ok (none, left)) :
    left = given ∧ x.stepSparing place e = pure e := by
  cases e with
  | call c =>
    unfold meet at met
    unfold stepSparing
    simp only at met ⊢
    cases known : x.callee? c with
    | none =>
      rw [known] at met
      cases met
      exact ⟨rfl, rfl⟩
    | some callee =>
      rw [known] at met
      obtain ⟨⟨texts, mid⟩, -, met⟩ := bind_ok_iff.mp met
      obtain ⟨⟨text, mid'⟩, -, met⟩ := bind_ok_iff.mp met
      cases met
  | _ =>
    cases met
    exact ⟨rfl, rfl⟩

/-- A call that is met is met whatever the properties are, and spared when it is the one in its place. -/
theorem meet_some (place : Nat) (blind : x.registry.IsBlind)
    (met : (x.meet e).run given = .ok (some n, left)) :
    left = x.leave given n ∧ (∀ given', (x.meet e).run given' = .ok (some n, x.leave given' n)) ∧
      x.stepSparing place e = x.spareIf place e := by
  cases e with
  | call c =>
    unfold meet at met ⊢
    unfold stepSparing
    simp only at met ⊢
    cases known : x.callee? c with
    | none =>
      rw [known] at met
      cases met
    | some callee =>
      obtain ⟨name, p⟩ := callee
      rw [known] at met
      obtain ⟨⟨texts, mid⟩, handed, met⟩ := bind_ok_iff.mp met
      obtain ⟨⟨text, mid'⟩, expanded, met⟩ := bind_ok_iff.mp met
      cases met
      obtain ⟨texts', given_texts, made⟩ := bind_ok_iff.mp handed
      cases made
      have found := get?_of_callee? known
      obtain ⟨r, ran⟩ := blind p (List.mem_of_find?_eq_some found) x.scope texts
      obtain ⟨⟨_, es⟩, rfl, made⟩ := map_ok_iff.mp ((ran given).symm.trans expanded)
      cases made
      -- What the call adds to the properties does not depend on those that are there.
      have left (given' : Properties) : x.leave given' ⟨name, texts, text⟩ = given'.insertAll es := by
        simp only [leave, found, ran]
        rfl
      refine ⟨(left given).symm, fun given' => ?_, rfl⟩
      rw [left]
      exact bind_ok_iff.mpr ⟨(texts, given'), bind_ok_iff.mpr ⟨texts, given_texts, rfl⟩,
        bind_ok_iff.mpr ⟨(text, given'.insertAll es), ran given', rfl⟩⟩
  | _ => cases met

/-! ## What calls write -/

theorem recorded_append (first second : List Note) :
    x.recorded (first ++ second) = second.foldl x.leave (x.recorded first) := List.foldl_append

section Blind

variable (blind : x.registry.IsBlind)
include blind

theorem exists_left (n : Note) : ∃ es, ∀ given, x.leave given n = given.insertAll es := by
  unfold leave
  cases found : x.registry.get? n.name with
  | none => exact ⟨[], fun _ => rfl⟩
  | some p =>
    obtain ⟨r, ran⟩ := blind p (List.mem_of_find?_eq_some found) x.scope n.texts
    simp only [ran]
    cases r with
    | error e => exact ⟨[], fun _ => rfl⟩
    | ok made => exact ⟨made.2, fun _ => rfl⟩

theorem exists_written (notes : List Note) :
    ∃ es, ∀ given, notes.foldl x.leave given = given.insertAll es := by
  induction notes with
  | nil => exact ⟨[], fun _ => rfl⟩
  | cons n notes ih =>
    obtain ⟨es, left⟩ := exists_left blind n
    obtain ⟨fs, written⟩ := ih
    refine ⟨es ++ fs, fun given => ?_⟩
    rw [List.foldl_cons, left, written]
    exact List.foldl_append.symm

/-- A property is as a later call wrote it, or else as an earlier one did. -/
theorem get?_recorded_append (first second : List Note) (key : String) :
    (x.recorded (first ++ second)).get? key =
      ((x.recorded second).get? key).or ((x.recorded first).get? key) := by
  obtain ⟨es, written⟩ := exists_written blind second
  rw [recorded_append, written, Keyed.get?_insertAll, recorded.eq_def x second, written]
  rfl

end Blind

/-! ## A call taken for another -/

/-- Work done with notes, and with a call spared: where the one goes through, its notes tell what properties
there are, and the other leaves all but those of the call that is spared, if this is not read. -/
def SparesIn (x : Expansion) (place : Nat) (α : Type) (w : StateT (List Note) Preparing α)
    (w' : StateT Nat Preparing α) : Prop :=
  ∀ ⦃before a notes left⦄, (w.run before).run (x.recorded before) = .ok ((a, notes), left) →
    (∃ more, notes = before ++ more) ∧ left = x.recorded notes ∧
    ((∀ n, notes[place]? = some n → x.Unread n) →
      (w'.run before.length).run (x.recorded (before.eraseIdx place)) =
        .ok ((a, notes.length), x.recorded (notes.eraseIdx place)))

/-- Work with a call spared is so one part after the other. -/
def sparing (x : Expansion) (place : Nat) :
    Simulation (StateT (List Note) Preparing) (StateT Nat Preparing) where
  Rel {α} _ := x.SparesIn place α
  pure a := by
    intro before a' notes left h
    cases h
    exact ⟨⟨[], (List.append_nil _).symm⟩, rfl, fun _ => rfl⟩
  bind {α β cs ds w w' k k'} first next := by
    intro before b notes left h
    rw [StateT.run_bind, StateT.run_bind] at h
    obtain ⟨⟨⟨a, notes₁⟩, mid⟩, ran, h⟩ := bind_ok_iff.mp h
    obtain ⟨⟨more, rfl⟩, rfl, spared⟩ := first ran
    obtain ⟨⟨more', rfl⟩, rfl, spared'⟩ := next a h
    refine ⟨⟨more ++ more', List.append_assoc _ _ _⟩, rfl, fun unread => ?_⟩
    have unread₁ : ∀ n, (before ++ more)[place]? = some n → x.Unread n := fun n there =>
      unread n ((List.getElem?_append_left (List.getElem?_eq_some_iff.mp there).1).trans there)
    rw [StateT.run_bind, StateT.run_bind, spared unread₁]
    exact spared' unread

theorem run_spareIf (met : Nat) : ((x.spareIf place e).run met).run given =
    if met = place then .ok ((e, met + 1), given)
    else (x.step e).run given >>= fun (a, left) => .ok ((a, met + 1), left) := by
  have counted : ((x.spareIf place e).run met).run given =
      (((if met = place then pure e else x.step e : StateT Nat Preparing Expr)).run (met + 1)).run given := rfl
  rw [counted]
  split <;> rfl

theorem eraseIdx_length {α : Type} (before : List α) (a : α) (after : List α) :
    (before ++ a :: after).eraseIdx before.length = before ++ after := by
  rw [List.eraseIdx_append_of_length_le (Nat.le_refl _), Nat.sub_self, List.eraseIdx_cons_zero]

theorem noted_spares (lenient : x.strict = false) (blind : x.registry.IsBlind) (e : Expr) :
    x.SparesIn place Expr (x.noted e) (x.stepSparing place e) := by
  intro before e' notes left h
  rw [run_noted] at h
  obtain ⟨⟨found, mid⟩, met, h⟩ := bind_ok_iff.mp h
  cases found with
  | none =>
    cases h
    obtain ⟨rfl, stays⟩ := meet_none place met
    exact ⟨⟨[], (List.append_nil _).symm⟩, rfl, fun _ => by rw [stays]; rfl⟩
  | some n =>
    cases h
    obtain ⟨rfl, again, spared⟩ := meet_some place blind met
    refine ⟨⟨[n], rfl⟩, (recorded_append before [n]).symm, fun unread => ?_⟩
    rw [spared, List.length_append, List.length_singleton]
    by_cases here : before.length = place
    · -- The call that is spared leaves nothing and stays, as it does when its text is not read.
      subst here
      have stays : x.settled e n = e := by
        obtain ⟨fault, failed⟩ := unread n (by simp)
        rw [settled, failed]
      rw [List.eraseIdx_of_length_le (Nat.le_refl _), eraseIdx_length, List.append_nil, stays, run_spareIf,
        if_pos rfl]
    · -- Any other call is met as before, with what the spared one wrote left out.
      have leaves : (before ++ [n]).eraseIdx place = before.eraseIdx place ++ [n] := by
        rcases Nat.lt_or_gt_of_ne here with after | earlier
        · rw [List.eraseIdx_of_length_le, List.eraseIdx_of_length_le]
          · omega
          · simp; omega
        · exact List.eraseIdx_append_of_lt_length earlier [n]
      have ran : (x.step e).run (x.recorded (before.eraseIdx place)) =
          .ok (x.settled e n, x.leave (x.recorded (before.eraseIdx place)) n) := by
        rw [run_step_eq, again]
        change (x.check n >>= fun _ => _) = _
        rw [check_of_lenient lenient]
        rfl
      rw [leaves, recorded_append, run_spareIf, if_neg here, ran]
      rfl

/-! ## Requests with a call spared -/

variable {s : Statement} {query : String}

theorem sparing_steps (place : Nat) (lenient : x.strict = false) (blind : x.registry.IsBlind) :
    (sparing x place).Steps x.noted (x.stepSparing place) where
  other _ := noted_spares lenient blind _
  call _ _ := noted_spares lenient blind _

/-- A query with a condition on what is no column. -/
def noColumn : String := "SELECT * FROM t WHERE __timeFilter('a b')"

end Expansion

end DetectionPlan
