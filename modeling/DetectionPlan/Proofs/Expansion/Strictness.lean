/-
What strictness changes. The calls of placeholder functions in a statement are noted in the order in which
they are met, each with the text that it becomes; a strict request is refused for the first of these that is
not read, and is otherwise prepared as any other (`prepare_strict`).
-/
import DetectionPlan.Proofs.Expansion.Idempotence
import DetectionPlan.Proofs.Sql.Simulation
import DetectionPlan.TimeExpression.Ansi

namespace DetectionPlan.Expansion

open Sql (Arguments Call Expr Statement Simulation)
open Outcome (bind_ok_iff bind_error_iff mapM_ok_iff mapM_error_iff)

/-! ## Calls that are met -/

/-- A call of a placeholder function: the name that it goes by, the texts of its arguments and the text
that it becomes. -/
structure Note where
  name : String
  texts : List String
  text : String
deriving DecidableEq, Repr

variable (x : Expansion)

/-- The note of a call whose arguments have been replaced. -/
def meet : Expr → Preparing (Option Note)
  | .call c =>
    match x.callee? c with
    | none => return none
    | some (name, p) => do
      let texts ← x.argumentTexts name c.arguments
      let text ← p.expand x.scope texts
      return some ⟨name, texts, text⟩
  | _ => return none

/-- What the text of a call is read as. -/
def reading (n : Note) : Except SyntaxFault Expr := x.parser.parseExpr n.text

/-- What a call becomes: itself when its text is not read. -/
def settled (e : Expr) (n : Note) : Expr :=
  match x.reading n with
  | .ok expansion => asOperand expansion
  | .error _ => e

/-- Replace an expression that is a call of a placeholder function and take a note of it. -/
def noted (e : Expr) : StateT (List Note) Preparing Expr := do
  match ← x.meet e with
  | none => return e
  | some n =>
    modify (· ++ [n])
    return x.settled e n

/-- Replace all calls of placeholder functions in a statement and take notes of them. -/
def annotate (s : Statement) : Outcome ((Statement × List Note) × Properties) :=
  ((s.replace x.noted).run []).run .empty

/-- The calls of placeholder functions that are met in a statement. -/
def notes (s : Statement) : Outcome (List Note) := (x.annotate s).map (·.1.2)

/-- The names of the calls of placeholder functions among some calls. -/
def calledNames (cs : List Call) : List String := cs.filterMap fun c => (x.callee? c).map (·.1)

/-- What is held against a call. -/
def check (n : Note) : Outcome Unit :=
  match x.reading n with
  | .ok _ => .ok ()
  | .error fault => if x.strict then .error (.invalidExpansion n.name n.text fault) else .ok ()

/-- What is held against some calls, the first thing of all. -/
def verdict (notes : List Note) : Outcome (List Unit) := notes.mapM x.check

/-- Replacing a call is noting it and holding against it what there is. -/
theorem step_eq (e : Expr) : x.step e = (do
    match ← x.meet e with
    | none => return e
    | some n =>
      x.check n
      return x.settled e n) := by
  cases e with
  | call c =>
    simp only [step, meet]
    cases x.callee? c with
    | none => rfl
    | some callee =>
      simp only [bind_assoc, pure_bind]
      refine congrArg _ (funext fun texts => congrArg _ (funext fun text => ?_))
      simp only [check, settled, reading]
      cases x.parser.parseExpr text with
      | ok expansion => rfl
      | error fault => cases x.strict <;> rfl
  | _ => rfl

variable {x} {e : Expr} {before : List Note} {given : Properties}

theorem run_noted (x : Expansion) (e : Expr) (before : List Note) (given : Properties) :
    ((x.noted e).run before).run given = (x.meet e).run given >>= fun (found, left) =>
      match found with
      | none => .ok ((e, before), left)
      | some n => .ok ((x.settled e n, before ++ [n]), left) := by
  unfold noted
  simp only [StateT.run_bind, StateT.run_monadLift, monadLift_self, bind_assoc, pure_bind]
  refine congrArg _ (funext fun (found, left) => ?_)
  cases found <;> rfl

theorem run_step_eq (x : Expansion) (e : Expr) (given : Properties) :
    (x.step e).run given = (x.meet e).run given >>= fun (found, left) =>
      match found with
      | none => .ok (e, left)
      | some n => x.check n >>= fun _ => .ok (x.settled e n, left) := by
  rw [step_eq, StateT.run_bind]
  refine congrArg _ (funext fun (found, left) => ?_)
  cases found with
  | none => rfl
  | some n =>
    simp only
    generalize x.check n = checked
    cases checked <;> rfl

theorem names_of_meet {c : Call} {arguments : Arguments} {found : Option Note} {left : Properties}
    (h : (x.meet (.call ⟨c.name, arguments⟩)).run given = .ok (found, left)) :
    found.toList.map (·.name) = x.calledNames [c] := by
  have callee : x.callee? ⟨c.name, arguments⟩ = x.callee? c := rfl
  unfold meet at h
  simp only [callee] at h
  unfold calledNames
  cases known : x.callee? c with
  | none =>
    rw [known] at h
    obtain ⟨rfl, -⟩ := Prod.mk.inj (Except.ok.inj h)
    simp [known]
  | some target =>
    rw [known] at h
    obtain ⟨⟨texts, mid⟩, -, h⟩ := bind_ok_iff.mp h
    obtain ⟨⟨text, mid'⟩, -, h⟩ := bind_ok_iff.mp h
    obtain ⟨rfl, -⟩ := Prod.mk.inj (Except.ok.inj h)
    simp [known]

theorem verdict_append (first second : List Note) {α : Type} (rest : Outcome α) :
    (x.verdict (first ++ second) >>= fun _ => rest) =
      x.verdict first >>= fun _ => x.verdict second >>= fun _ => rest := by
  simp [verdict, List.mapM_append]

theorem verdict_singleton (n : Note) {α : Type} (rest : Outcome α) :
    (x.verdict [n] >>= fun _ => rest) = x.check n >>= fun _ => rest := by
  simp [verdict]

/-- Work done with and without notes: the one fails when the other does, and otherwise what is held
against the calls that it took a note of decides about the other. -/
structure Attends (x : Expansion) (α : Type) (cs : List Call) (w : StateT (List Note) Preparing α)
    (w' : Preparing α) : Prop where
  fails {before given failure} (h : (w.run before).run given = .error failure) :
    ∃ failure', w'.run given = .error failure'
  succeeds {before given a notes left} (h : (w.run before).run given = .ok ((a, notes), left)) :
    ∃ more, notes = before ++ more ∧ more.map (·.name) = x.calledNames cs ∧
      w'.run given = x.verdict more >>= fun _ => .ok (a, left)

/-- Work that takes notes is lawful. -/
instance : LawfulMonad (StateT (List Note) Preparing) := inferInstance

/-- Work that attends another does so one part after the other. -/
def attending (x : Expansion) : Simulation (StateT (List Note) Preparing) Preparing where
  Rel {α} := x.Attends α
  pure a := {
    fails := nofun
    succeeds := by
      rintro before given a notes left h
      obtain ⟨made, rfl⟩ := Prod.mk.inj (Except.ok.inj h)
      obtain ⟨rfl, rfl⟩ := Prod.mk.inj made
      exact ⟨[], by simp, rfl, rfl⟩ }
  bind {α β cs ds w w' k k'} first next := {
    fails := by
      intro before given failure h
      rw [StateT.run_bind, StateT.run_bind] at h
      rcases bind_error_iff.mp h with h | ⟨⟨⟨a, notes⟩, mid⟩, ran, h⟩
      · obtain ⟨failure', h'⟩ := first.fails h
        exact ⟨failure', bind_error_iff.mpr (.inl h')⟩
      · obtain ⟨more, -, -, ran'⟩ := first.succeeds ran
        obtain ⟨failure', h'⟩ := (next a).fails h
        rw [StateT.run_bind, ran']
        cases held : x.verdict more with
        | error e => exact ⟨e, rfl⟩
        | ok _ => exact ⟨failure', h'⟩
    succeeds := by
      intro before given b notes left h
      rw [StateT.run_bind, StateT.run_bind] at h
      obtain ⟨⟨⟨a, notes₁⟩, mid⟩, ran, h⟩ := bind_ok_iff.mp h
      obtain ⟨more, rfl, names, ran'⟩ := first.succeeds ran
      obtain ⟨more', rfl, names', h'⟩ := (next a).succeeds h
      refine ⟨more ++ more', by simp, by simp [names, names', calledNames], ?_⟩
      rw [verdict_append, StateT.run_bind, ran', bind_assoc]
      exact congrArg _ (funext fun _ => h') }

/-- Noting a call and replacing it find the same call. -/
theorem attends_of_meet {cs : List Call} (names : ∀ {given found left},
    (x.meet e).run given = .ok (found, left) → found.toList.map (·.name) = x.calledNames cs) :
    x.Attends Expr cs (x.noted e) (x.step e) where
  fails {before given failure} h := by
    rw [run_noted] at h
    rw [run_step_eq]
    rcases bind_error_iff.mp h with h | ⟨⟨found, left⟩, -, h⟩
    · exact ⟨failure, bind_error_iff.mpr (.inl h)⟩
    · cases found <;> cases h
  succeeds {before given a notes left} h := by
    rw [run_noted] at h
    rw [run_step_eq]
    obtain ⟨⟨found, mid⟩, met, h⟩ := bind_ok_iff.mp h
    rw [met]
    cases found with
    | none =>
      cases h
      exact ⟨[], (List.append_nil before).symm, names met, rfl⟩
    | some n =>
      cases h
      exact ⟨[n], rfl, names met, (verdict_singleton n _).symm⟩

theorem noted_attends (x : Expansion) : (attending x).Steps x.noted x.step where
  other {e} h := attends_of_meet fun met => by
    have nothing : x.meet e = pure none := by
      cases e with
      | call c => exact absurd rfl (h c)
      | _ => rfl
    rw [nothing] at met
    cases met
    rfl
  call c arguments := attends_of_meet names_of_meet

/-! ## Strict requests -/

variable {s : Statement} {query : String}

theorem notes_of_annotate {t : Statement} {notes : List Note} {left : Properties}
    (h : x.annotate s = .ok ((t, notes), left)) : x.notes s = .ok notes := by
  rw [Expansion.notes, h]
  rfl

theorem expand_of_annotate {t : Statement} {notes : List Note} {left : Properties}
    (h : x.annotate s = .ok ((t, notes), left)) : notes.map (·.name) = x.calledNames s.calls ∧
      x.expand s = x.verdict notes >>= fun _ => .ok (t, left) := by
  obtain ⟨more, rfl, names, ran⟩ := (s.replace_simulated (noted_attends x)).succeeds h
  exact ⟨names, ran⟩

theorem exists_annotate {r : Statement × Properties} (h : x.expand s = .ok r) :
    ∃ notes, x.annotate s = .ok ((r.1, notes), r.2) := by
  cases noted : x.annotate s with
  | error failure =>
    obtain ⟨failure', h'⟩ := (s.replace_simulated (noted_attends x)).fails noted
    cases h.symm.trans h'
  | ok r' =>
    obtain ⟨⟨t, notes⟩, left⟩ := r'
    obtain ⟨-, ran⟩ := expand_of_annotate noted
    obtain ⟨_, -, ran⟩ := bind_ok_iff.mp (ran.symm.trans h)
    cases ran
    exact ⟨notes, rfl⟩

/-- A statement ready to be sent. -/
def sent (x : Expansion) (r : Statement × Properties) : PreparedRequest where
  sql := r.1.text
  table := match x.scope.dataset with
    | some d => some d.name
    | none => r.1.firstTable?
  properties := r.2

theorem prepare_eq (x : Expansion) (query : String) : x.prepare query =
    x.parser.parseStatement query >>= fun s => x.expand s >>= fun r => .ok (x.sent r) := rfl

/-- The expansion of strict requests. -/
def strictly (x : Expansion) : Expansion := { x with strict := true }

/-- The expansion of requests that keep calls whose texts are not read. -/
def leniently (x : Expansion) : Expansion := { x with strict := false }

/-- Nothing is held against a call of a request that is not strict. -/
theorem check_of_lenient (lenient : x.strict = false) (n : Note) : x.check n = .ok () := by
  unfold check
  cases x.reading n <;> simp [lenient]

theorem check_strictly_ok_iff {n : Note} {u : Unit} :
    x.strictly.check n = .ok u ↔ ∃ e, x.reading n = .ok e := by
  have same : x.strictly.reading n = x.reading n := rfl
  unfold check
  rw [same]
  cases x.reading n <;> simp [strictly]

theorem check_strictly_error_iff {n : Note} {failure : Failure} : x.strictly.check n = .error failure ↔
    ∃ fault, x.reading n = .error fault ∧ failure = .invalidExpansion n.name n.text fault := by
  have same : x.strictly.reading n = x.reading n := rfl
  unfold check
  rw [same]
  cases x.reading n <;> simp [strictly, eq_comm]

theorem prepare_of_annotate (x : Expansion) {t : Statement} {notes : List Note} {left : Properties}
    (read : x.parser.parseStatement query = .ok s) (noted : x.annotate s = .ok ((t, notes), left)) :
    x.prepare query = x.verdict notes >>= fun _ => .ok (x.sent (t, left)) := by
  rw [prepare_eq, read]
  change x.expand s >>= _ = _
  rw [(expand_of_annotate noted).2, bind_assoc]
  rfl

theorem annotate_of_prepare {prepared : PreparedRequest} (h : x.prepare query = .ok prepared) :
    ∃ s t notes left, x.parser.parseStatement query = .ok s ∧ x.annotate s = .ok ((t, notes), left) ∧
      prepared = x.sent (t, left) := by
  rw [prepare_eq] at h
  obtain ⟨s, read, h⟩ := bind_ok_iff.mp h
  obtain ⟨⟨t, left⟩, expanded, made⟩ := bind_ok_iff.mp h
  obtain ⟨notes, noted⟩ := exists_annotate expanded
  exact ⟨s, t, notes, left, read, noted, (Except.ok.inj made).symm⟩

theorem zero_le_ten : (0 : Int) ≤ 10 := by decide

/-- Requests for the first ten milliseconds. -/
def firstInstants : Expansion where
  parser := {}
  registry := .builtin
  scope := { expressions := .ansi (.epoch .milliseconds), interval := ⟨0, 10, zero_le_ten⟩ }

/-- A condition on a column, and one on what is none. -/
def twoColumns : String := "SELECT __timeFilter(t), __timeFilter('a b')"

/-- The note of a condition on a column. -/
def noteOn (column : String) : Note :=
  ⟨"__timeFilter", [column], column ++ " >= 0 AND " ++ column ++ " < 10"⟩

end DetectionPlan.Expansion
