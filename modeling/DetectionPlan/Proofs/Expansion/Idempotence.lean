/-
Preparing a query twice. What replaces a call is read from a text, so it calls no placeholder
function when the text mentions none, and a statement without such calls is prepared as it is: a
prepared query stays when it is prepared again, unless the text of a column brings the name of a
placeholder function with it (`prepare_prepared`).
-/
import DetectionPlan.Proofs.Expansion.Mention
import DetectionPlan.Proofs.Expansion.TimeQuery
import DetectionPlan.Proofs.Sql.CallNames
import DetectionPlan.Proofs.Sql.Swap.Tree

namespace DetectionPlan

open Sql (Call Expr Statement)
open Outcome (bind_ok_iff)

/-- The placeholders that every request knows have names of letters and low lines. -/
theorem PlaceholderRegistry.builtin_names : ∀ p ∈ builtin.entries,
    Sql.IsLettered p.name ∧ '_' ∈ (asciiLower p.name).toList := by decide +kernel

/-- A text that mentions no placeholder function. -/
def PlaceholderRegistry.Unnamed (r : PlaceholderRegistry) (text : String) : Prop :=
  ∀ p ∈ r.entries, ¬ Sql.Mentions p.name text.toList

instance (r : PlaceholderRegistry) (text : String) : Decidable (r.Unnamed text) :=
  List.decidableBAll _ _

namespace Expansion

variable {x : Expansion}

/-- A call hands texts to the placeholder function that it is to: those of its arguments, after the
calls among these have been replaced. -/
def Hands (x : Expansion) (c : Call) (p : Placeholder) (texts : List String) : Prop :=
  ∃ name given arguments left, x.callee? c = some (name, p) ∧
    (c.arguments.replace x.step).run given = .ok (arguments, left) ∧ x.argumentTexts name arguments = .ok texts

/-! ## Statements without calls of placeholder functions -/

theorem step_other {e : Expr} (h : ∀ c, e ≠ .call c) : x.step e = pure e := by
  cases e with
  | call c => exact absurd rfl (h c)
  | _ => rfl

theorem step_spares (x : Expansion) : Sql.Spares x.step (x.callee? · = none) where
  other := step_other
  call {c} none := by simp [step, none]

/-- Nothing is replaced in a statement that calls no placeholder function. -/
theorem expand_of_calls {s : Statement} (none : ∀ c ∈ s.calls, x.callee? c = none) :
    x.expand s = .ok (s, .empty) := by
  rw [expand, s.replace_spared x.step_spares none]
  rfl

/-- A call hands over the texts of its arguments when none of these calls a placeholder function. -/
theorem Hands.of_calls {c : Call} {p : Placeholder} {texts : List String} (handed : x.Hands c p texts)
    (none : ∀ d ∈ c.arguments.calls, x.callee? d = none) : ∃ name, x.argumentTexts name c.arguments = .ok texts := by
  obtain ⟨name, given, arguments, left, -, replaced, handed⟩ := handed
  rw [c.arguments.replace_spared x.step_spares none] at replaced
  obtain ⟨rfl, -⟩ := Prod.mk.inj (Except.ok.inj replaced)
  exact ⟨name, handed⟩

/-! ## What becomes of a call -/

/-- A call expands to a text: what its placeholder function makes of the texts that it is handed. -/
def Expands (x : Expansion) (c : Call) (text : String) : Prop :=
  ∃ p texts given left, x.Hands c p texts ∧ (p.expand x.scope texts).run given = .ok (text, left)

/-- What becomes of a call. It stays if it is to no placeholder function, and, unless the request is
strict, if it expands to what is no expression. Else what it expands to stands in its place as one
operand. -/
inductive Becomes (x : Expansion) (c : Call) : Option Expr → Prop
  | other (h : x.callee? c = none) : Becomes x c none
  | unread {text : String} {fault : SyntaxFault} (expands : x.Expands c text)
    (read : x.parser.parseExpr text = .error fault) (lenient : x.strict = false) : Becomes x c none
  | placed {text : String} {e : Expr} (expands : x.Expands c text) (read : x.parser.parseExpr text = .ok e) :
    Becomes x c (some (asOperand e))

/-- A step replaces calls and nothing else. -/
theorem step_swaps (x : Expansion) (S : Call → Prop) : Sql.Swaps x.step S fun c e => S c ∧ x.Becomes c e where
  other := step_other
  call {c arguments s t} given replaced := by
    -- its name tells what a call is to, and the arguments alone are replaced before it
    have callee : x.callee? ⟨c.name, arguments⟩ = x.callee? c := rfl
    unfold step
    simp only [callee]
    cases found : x.callee? c with
    | none => exact .pure (.inl ⟨⟨given, .other found⟩, rfl⟩)
    | some callee =>
      obtain ⟨name, p⟩ := callee
      have texts : Keeps (fun _ => True) (x.Hands c p) (x.argumentTexts name arguments : Preparing _) :=
        .lift fun texts handed => ⟨name, s, arguments, t, found, replaced, handed⟩
      refine texts.bind fun texts handed => ?_
      have text : Keeps (fun _ => True) (x.Expands c) (p.expand x.scope texts) :=
        fun _ _ _ expanded _ => ⟨⟨p, texts, _, _, handed, expanded⟩, trivial⟩
      refine text.bind fun text expands => ?_
      cases read : x.parser.parseExpr text with
      | ok e => exact .pure (.inr ⟨given, .placed expands read⟩)
      | error fault =>
        cases strict : x.strict with
        | true => exact .throw _
        | false => exact .pure (.inl ⟨⟨given, .unread expands read strict⟩, rfl⟩)

/-! ## What is left after a replacement -/

theorem calls_asOperand (e : Expr) : (asOperand e).calls = e.calls := by
  cases e <;> rfl

theorem callee?_eq_none {c : Call} (unknown : ∀ i ∈ c.name, x.registry.get? i.text = none) :
    x.callee? c = none := by
  unfold callee?
  cases last : c.name.getLast? with
  | none => rfl
  | some i => simp [unknown i (List.mem_of_getLast? last)]

theorem get?_of_callee? {c : Call} {name : String} {p : Placeholder} (h : x.callee? c = some (name, p)) :
    x.registry.get? name = some p := by
  obtain ⟨i, -, h⟩ := Option.bind_eq_some_iff.mp h
  obtain ⟨q, found, made⟩ := Option.bind_eq_some_iff.mp h
  obtain ⟨rfl, rfl⟩ := Prod.mk.inj (Option.some.inj made)
  exact found

theorem mem_of_callee? {c : Call} {name : String} {p : Placeholder} (h : x.callee? c = some (name, p)) :
    p ∈ x.registry.entries := List.mem_of_find?_eq_some (get?_of_callee? h)

/-- What is read from a text that mentions no placeholder function calls none. -/
theorem callee?_of_parseExpr (lettered : ∀ p ∈ x.registry.entries, Sql.IsLettered p.name) {text : String} {e : Expr}
    (read : x.parser.parseExpr text = .ok e) (unnamed : x.registry.Unnamed text) :
    ∀ c ∈ e.calls, x.callee? c = none := by
  obtain ⟨ts, scanned, -⟩ := bind_ok_iff.mp read
  have parts : Sql.Parser.PartsBy (x.registry.get? ·.text = none) ts := by
    intro t mem i part
    rw [PlaceholderRegistry.get?, List.find?_eq_none]
    intro p known goes
    have same : asciiLower p.name = asciiLower i.text := by simpa [PlaceholderRegistry.goesBy] using goes
    exact unnamed p known (Sql.Lexer.mentions_of_scan scanned mem part (lettered p known) same.symm)
  intro c mem
  exact callee?_eq_none (Sql.parseExpr_calls read scanned parts c mem)

/-- What a call hands over becomes a text that mentions no placeholder function. -/
def ExpandsUnnamed (x : Expansion) (c : Call) : Prop :=
  ∀ p texts, x.Hands c p texts → Keeps (fun _ => True) x.registry.Unnamed (p.expand x.scope texts)

/-- In a strict request a call of a placeholder function is replaced or an error. -/
theorem step_settles (strict : x.strict) (lettered : ∀ p ∈ x.registry.entries, Sql.IsLettered p.name) :
    Sql.Settles x.step (fun _ => True) x.ExpandsUnnamed (x.callee? · = none) where
  other := step_other
  call {c arguments s t} given _ replaced settled := by
    refine ((x.step_swaps fun _ => True).call trivial replaced).mono fun e becomes => ?_
    rcases becomes with ⟨⟨-, stays⟩, rfl⟩ | ⟨-, placed⟩
    · cases stays with
      | other none =>
        intro d mem
        rcases List.mem_append.mp mem with inside | itself
        · exact settled d inside
        · rw [List.mem_singleton.mp itself]
          exact none
      | unread _ _ lenient =>
        rw [strict] at lenient
        cases lenient
    · cases placed with
      | placed expands read =>
        obtain ⟨p, texts, _, _, handed, expanded⟩ := expands
        rw [calls_asOperand]
        exact callee?_of_parseExpr lettered read (given p texts handed expanded trivial).1

/-- No call of a placeholder function is left in a statement whose calls become texts that mention
none. -/
theorem calls_of_expand (strict : x.strict) (lettered : ∀ p ∈ x.registry.entries, Sql.IsLettered p.name)
    {s expanded : Statement} {properties : Properties} (unnamed : ∀ c ∈ s.calls, x.ExpandsUnnamed c)
    (accepted : x.expand s = .ok (expanded, properties)) : ∀ c ∈ expanded.calls, x.callee? c = none :=
  (s.replace_keeps (step_settles strict lettered) unnamed accepted trivial).1

/-! ## The placeholders that every request knows -/

theorem expandsUnnamed_of_builtin {c : Call} (builtin : x.registry = .builtin)
    (avoids : ∀ p ∈ x.registry.entries, x.scope.Avoids p.name)
    (unnamed : ∀ p texts, x.Hands c p texts → ∀ column ∈ texts.head?, x.registry.Unnamed column) :
    x.ExpandsUnnamed c := by
  intro p texts handed properties left text expanded _
  have known : p ∈ PlaceholderRegistry.builtin.entries := by
    obtain ⟨name, _, _, _, callee, -⟩ := handed
    exact builtin ▸ mem_of_callee? callee
  refine ⟨fun q mem mentioned => ?_, trivial⟩
  obtain ⟨lettered, low⟩ := PlaceholderRegistry.builtin_names q (builtin ▸ mem)
  obtain ⟨column, first, mentioned⟩ :=
    (Placeholder.mentions_of_expand (avoids q mem) lettered low known texts expanded trivial).1 mentioned
  exact unnamed p texts handed column first q mem mentioned

/-! ## A placeholder among the arguments of another -/

/-- A strict request for two days of a source that stores milliseconds. -/
def twoDays : Expansion where
  parser := {}
  registry := .builtin
  scope := { expressions := .ansi (.epoch .milliseconds), interval := ⟨0, 172800000, by decide⟩ }
  strict := true

/-- The start of the day of a time. -/
def startOfDay : Call where
  name := [⟨"__timeGroup", none⟩]
  arguments := .list none [.positional (.name [⟨"ts", none⟩]),
    .positional (.literal (.string .single "EPOCH_MILLIS")), .positional (.literal (.string .single "P1D"))]

/-- The condition that the day of a time starts within the two days. -/
def startsWithin : Call where
  name := [⟨"__timeFilter", none⟩]
  arguments := .list none [.positional (.call startOfDay)]

/-- The rows with such a time. -/
def rowsStarting : String := "SELECT * FROM t WHERE __timeFilter(__timeGroup(ts, 'EPOCH_MILLIS', 'P1D'))"

/-- What the start of the day becomes. -/
def floorOfDay : Expr :=
  .binary (.rounding false (.binary (.name [⟨"ts", none⟩]) .divide (.literal (.number "86400000" false))) none)
    .times (.literal (.number "86400000" false))

def floorOfDayTokens : List Sql.Token :=
  [.word ⟨"FLOOR", none⟩ (some .FLOOR), .mark .leftParen, .word ⟨"ts", none⟩ none, .mark .slash,
    .number "86400000" false, .mark .rightParen, .mark .star, .number "86400000" false]

/-- What the condition becomes. -/
def floorWithin : Expr :=
  .binary (.binary (.nested floorOfDay) .gtEq (.literal (.number "0" false))) .and
    (.binary (.nested floorOfDay) .lt (.literal (.number "172800000" false)))

def floorWithinTokens : List Sql.Token :=
  let floor := .mark .leftParen :: floorOfDayTokens ++ [.mark .rightParen]
  floor ++ .mark .gtEq :: .number "0" false :: .word ⟨"AND", none⟩ (some .AND) :: floor ++
    [.mark .lt, .number "172800000" false]

theorem parseStatement_rowsStarting :
    twoDays.parser.parseStatement rowsStarting = .ok (.query (.allWhere "t" (.call startsWithin))) := by
  let tokens : List Sql.Token := Sql.allWhereTokens "t" ++ [.word ⟨"__timeFilter", none⟩ none, .mark .leftParen,
    .word ⟨"__timeGroup", none⟩ none, .mark .leftParen, .word ⟨"ts", none⟩ none, .mark .comma,
    .string .single "EPOCH_MILLIS", .mark .comma, .string .single "P1D", .mark .rightParen, .mark .rightParen]
  exact Sql.parseStatement_of_tokens tokens [] (by decide +kernel) rfl

theorem replace_startOfDay (given : Properties) :
    ∃ left, ((Expr.call startOfDay).replace twoDays.step).run given = .ok (.nested floorOfDay, left) := by
  have callee := callee?_builtin (x := twoDays) rfl (p := .timeGroup) (List.mem_pair.mpr (.inr rfl))
  have read : twoDays.parser.parseExpr "FLOOR(ts / 86400000) * 86400000" = .ok floorOfDay :=
    bind_ok_iff.mpr ⟨floorOfDayTokens, by decide +kernel, rfl⟩
  exact ⟨_, run_step (callee _) rfl rfl read⟩

/-- The arguments of the condition, after the call among them has been replaced. -/
def floorArguments : Sql.Arguments := .list none [.positional (.nested floorOfDay)]

theorem replace_arguments_startsWithin (given : Properties) :
    ∃ left, (startsWithin.arguments.replace twoDays.step).run given = .ok (floorArguments, left) := by
  obtain ⟨left, floor⟩ := replace_startOfDay given
  have inner : startsWithin.arguments.replace twoDays.step =
      (fun e => .list none [.positional e]) <$> (Expr.call startOfDay).replace twoDays.step := by
    simp [startsWithin, Sql.Arguments.replace, Sql.replaceArguments, Sql.Argument.replace]
  rw [inner, StateT.run_map, floor]
  exact ⟨left, rfl⟩

theorem floorArguments_texts (name : String) :
    twoDays.argumentTexts name floorArguments = .ok ["(FLOOR(ts / 86400000) * 86400000)"] := by
  have text : argumentText {} (.positional (.nested floorOfDay)) = "(FLOOR(ts / 86400000) * 86400000)" := by
    decide +kernel
  exact congrArg (fun text => Except.ok [text]) text

theorem replace_startsWithin :
    ∃ left, ((Expr.call startsWithin).replace twoDays.step).run .empty = .ok (.nested floorWithin, left) := by
  obtain ⟨left, replaced⟩ := replace_arguments_startsWithin .empty
  have callee := callee?_builtin (x := twoDays) rfl (p := .timeFilter) List.mem_cons_self
  have whole : Placeholder.lookbackArgument Placeholder.timeFilterName none = .ok .zero := rfl
  have moved : twoDays.scope.interval.withLookback .zero .zero = .ok twoDays.scope.interval :=
    Outcome.ok_of_toOption (by decide +kernel)
  have counts : twoDays.scope.Counts "(FLOOR(ts / 86400000) * 86400000)" .milliseconds := .source rfl (.inl rfl)
  have expanded := Placeholder.filterColumn_eq whole whole moved counts left
  have read : twoDays.parser.parseExpr (Sql.rangeText "(FLOOR(ts / 86400000) * 86400000)" 0 172800000) =
      .ok floorWithin := bind_ok_iff.mpr ⟨floorWithinTokens, by decide +kernel, rfl⟩
  have condition := run_step (callee _) (floorArguments_texts _) expanded read
  exact ⟨_, bind_ok_iff.mpr ⟨_, bind_ok_iff.mpr ⟨_, replaced, rfl⟩, condition⟩⟩

theorem unnamed_startsWithin : ∀ c ∈ [startOfDay, startsWithin], ∀ p texts, twoDays.Hands c p texts →
    ∀ column ∈ texts.head?, twoDays.registry.Unnamed column := by
  intro c mem p texts handed column first
  rcases List.mem_pair.mp mem with rfl | rfl
  · obtain ⟨name, handed⟩ := handed.of_calls nofun
    obtain rfl := Except.ok.inj handed
    obtain rfl : "ts" = column := Option.some.inj first
    decide +kernel
  · obtain ⟨name, given, arguments, left, -, replaced, handed⟩ := handed
    obtain ⟨left', replaced'⟩ := replace_arguments_startsWithin given
    obtain ⟨rfl, -⟩ := Prod.mk.inj (Except.ok.inj (replaced.symm.trans replaced'))
    obtain rfl := Except.ok.inj ((floorArguments_texts name).symm.trans handed)
    obtain rfl := Option.some.inj first
    decide +kernel

theorem avoids_twoDays : ∀ p ∈ twoDays.registry.entries, twoDays.scope.Avoids p.name := by
  intro p mem
  have plain : (TimeFormat.epoch .milliseconds).IsPlain := trivial
  exact ⟨⟨_, rfl, plain.avoids (PlaceholderRegistry.builtin_names p mem).2⟩, nofun⟩

/-! ## Preparing again -/

/-- A string brings the call in it along. -/
example :
    let scope : RequestScope := { expressions := .ansi (.epoch .milliseconds), interval := ⟨0, 10, by decide⟩ }
    let x : Expansion := { parser := {}, registry := .builtin, scope, strict := true }
    (x.prepare "SELECT a FROM t WHERE __timeFilter('__timeFilter(ts)')").toOption.map (·.sql) =
      some "SELECT a FROM t WHERE (__timeFilter(ts) >= 0 AND __timeFilter(ts) < 10)" := by
  decide +kernel

end Expansion

end DetectionPlan
