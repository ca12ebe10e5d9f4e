/-
How the results of a run are named in its document. The name of a result is
that of its node and that of its output with a dot between them, and both may
hold dots themselves. Two results are named alike exactly when the name of one
node goes on behind the other with a dot and a part that the other's output
starts with (`OutputKey.text_eq_iff`). A run that ends well is written without
loss exactly when no two outputs of its plan are like that
(`written_apart_iff`).
-/
import DetectionPlan.Command
import DetectionPlan.Proofs.Plan.Completion
import Mathlib.Data.List.Dedup

namespace DetectionPlan

namespace OutputKey

/-- A part of the name stands on the side of the output in the one key, and on
that of the node in the other. -/
def RunsInto (k l : OutputKey) : Prop :=
  ∃ part, l.node = k.node ++ "." ++ part ∧ k.output = part ++ "." ++ l.output

/-- Two ways of putting a dot into the same text. -/
theorem append_dot_eq_iff {a b c d : List Char} :
    a ++ '.' :: b = c ++ '.' :: d ↔
      (a = c ∧ b = d) ∨ (∃ part, c = a ++ '.' :: part ∧ b = part ++ '.' :: d) ∨
        ∃ part, a = c ++ '.' :: part ∧ d = part ++ '.' :: b := by
  constructor
  · intro h
    rcases List.append_eq_append_iff.mp h with ⟨more, rfl, rest⟩ | ⟨more, rfl, rest⟩ <;>
      cases more with
      | nil => simp_all
      | cons dot part =>
        obtain ⟨rfl, rfl⟩ := List.cons.inj rest
        simp
  · rintro (⟨rfl, rfl⟩ | ⟨part, rfl, rfl⟩ | ⟨part, rfl, rfl⟩) <;> simp

theorem runsInto_iff {k l : OutputKey} :
    k.RunsInto l ↔ ∃ part, l.node.toList = k.node.toList ++ '.' :: part ∧
      k.output.toList = part ++ '.' :: l.output.toList := by
  constructor
  · rintro ⟨part, node, output⟩
    exact ⟨part.toList, by simp [node], by simp [output]⟩
  · rintro ⟨part, node, output⟩
    exact ⟨String.ofList part, String.toList_inj.mp (by simp [node]),
      String.toList_inj.mp (by simp [output])⟩

/-- Different keys are named alike exactly when one runs into the other. -/
theorem text_eq_iff {k l : OutputKey} :
    k.text = l.text ↔ k = l ∨ k.RunsInto l ∨ l.RunsInto k := by
  have letters (j : OutputKey) : j.text.toList = j.node.toList ++ '.' :: j.output.toList := by
    simp [text]
  rw [← String.toList_inj, letters, letters, append_dot_eq_iff, runsInto_iff, runsInto_iff,
    String.toList_inj, String.toList_inj, OutputKey.mk.injEq]

/-- A key does not run into itself, as one with a longer name would not. -/
theorem RunsInto.ne {k l : OutputKey} (h : k.RunsInto l) : k ≠ l := by
  rintro rfl
  obtain ⟨part, node, -⟩ := runsInto_iff.mp h
  exact absurd (congrArg List.length node) (by simp)

/-- Among keys that differ the names differ exactly when none runs into another. -/
theorem nodup_texts_iff {keys : List OutputKey} (distinct : keys.Nodup) :
    (keys.map text).Nodup ↔ ∀ k ∈ keys, ∀ l ∈ keys, ¬ k.RunsInto l := by
  constructor
  · intro apart k hk l hl into
    have alike : k.text = l.text := text_eq_iff.mpr (.inr (.inl into))
    exact into.ne (List.inj_on_of_nodup_map apart hk hl alike)
  · intro apart
    refine distinct.map_on fun k hk l hl alike => ?_
    rcases text_eq_iff.mp alike with same | into | into
    · exact same
    · exact absurd into (apart k hk l hl)
    · exact absurd into (apart l hl k hk)

end OutputKey

/-! ## Members of an object -/

namespace Json

/-- Keep a member in place of an earlier one of its name. -/
def keepMember (kept : List (String × Json)) (m : String × Json) : List (String × Json) :=
  if kept.any (·.1 == m.1) then kept.map fun k => if k.1 == m.1 then m else k else kept ++ [m]

theorem names_keepMember (kept : List (String × Json)) (m : String × Json) :
    (keepMember kept m).map (·.1) =
      if m.1 ∈ kept.map (·.1) then kept.map (·.1) else kept.map (·.1) ++ [m.1] := by
  have known : (kept.any (·.1 == m.1)) = true ↔ m.1 ∈ kept.map (·.1) := by
    simp [List.any_eq_true]
  unfold keepMember
  by_cases there : m.1 ∈ kept.map (·.1)
  · rw [if_pos (known.mpr there), if_pos there, List.map_map]
    refine List.map_congr_left fun k _ => ?_
    by_cases same : k.1 = m.1 <;> simp [same]
  · rw [if_neg (mt known.mp there), if_neg there, List.map_append]
    rfl

theorem names_keepAll (kept members : List (String × Json)) (distinct : (kept.map (·.1)).Nodup) :
    ((members.foldl keepMember kept).map (·.1)).Nodup ∧
      ∀ name, name ∈ (members.foldl keepMember kept).map (·.1) ↔
        name ∈ kept.map (·.1) ∨ name ∈ members.map (·.1) := by
  induction members generalizing kept with
  | nil => exact ⟨distinct, fun name => by simp⟩
  | cons m members ih =>
    have names := names_keepMember kept m
    have distinct' : ((keepMember kept m).map (·.1)).Nodup := by
      rw [names]
      split
      · exact distinct
      · next new => exact List.nodup_append.mpr ⟨distinct, by simp, by grind⟩
    obtain ⟨nodup, mem⟩ := ih (keepMember kept m) distinct'
    refine ⟨nodup, fun name => ?_⟩
    rw [List.foldl_cons, mem, names]
    split
    next there => grind
    next => grind

/-- Reading an object keeps one member for each name in it. -/
theorem length_canonicalMembers (members : List (String × Json)) :
    (canonicalMembers members).length = (members.map (·.1)).dedup.length := by
  obtain ⟨nodup, mem⟩ := names_keepAll [] members List.nodup_nil
  have perm : ((members.foldl keepMember []).map (·.1)).Perm (members.map (·.1)).dedup :=
    (List.perm_ext_iff_of_nodup nodup (List.nodup_dedup _)).mpr fun name => by
      rw [mem, List.mem_dedup]
      simp
  rw [← perm.length_eq, List.length_map]
  exact (List.mergeSort_perm _ _).length_eq

/-- None is lost exactly when the names differ. -/
theorem length_canonicalMembers_iff (members : List (String × Json)) :
    (canonicalMembers members).length = members.length ↔ (members.map (·.1)).Nodup := by
  have count : members.length = (members.map (·.1)).length := (List.length_map _).symm
  rw [length_canonicalMembers, count]
  constructor
  · intro same
    rw [← (List.dedup_sublist _).eq_of_length same]
    exact List.nodup_dedup _
  · intro distinct
    rw [distinct.dedup]

/-- Where the names differ each member is found under its name. -/
theorem get?_of_nodup {members : List (String × Json)} (distinct : (members.map (·.1)).Nodup)
    {name : String} {j : Json} (h : (name, j) ∈ members) :
    (Json.object members).get? name = some j := by
  have found : (members.reverse.find? (·.1 == name)).isSome :=
    List.find?_isSome.mpr ⟨_, List.mem_reverse.mpr h, by simp⟩
  obtain ⟨m, hm⟩ := Option.isSome_iff_exists.mp found
  have named : m.1 = name := by simpa using List.find?_some hm
  have member : m ∈ members := List.mem_reverse.mp (List.mem_of_find?_eq_some hm)
  obtain rfl : m = (name, j) := List.inj_on_of_nodup_map distinct member h named
  simp [get?, hm]

end Json

/-! ## The document of a run -/

/-- The members that results are written as. -/
def Results.members (r : Results) : List (String × Json) :=
  r.entries.map fun e => (e.1.text, e.2.toJson)

theorem Results.names_members (r : Results) : r.members.map (·.1) = r.keys.map OutputKey.text := by
  rw [members, Keyed.keys, List.map_map, List.map_map]
  rfl

/-- **Which runs are written without loss.** The document of a run that ends well has one member
for each result. Their names differ, so that reading the document gives as many results as the
run has and each under its own name, exactly when of the outputs that the plan promises none
runs into another. -/
theorem written_apart_iff {registry : OperatorRegistry} {specs : List NodeSpec} {x : Execution}
    {r : Results} (compiled : Plan.compile registry specs = .ok x.plan) (fresh : x.trace = none)
    (ends : x.execute.1 = .ok r) :
    x.execute.2.toJson.get? "results" = some (.object r.members) ∧
    ((∀ k ∈ r.keys, ∀ l ∈ r.keys, k ≠ l → k.text ≠ l.text) ↔
      ∀ k ∈ x.plan.promised, ∀ l ∈ x.plan.promised, ¬ k.RunsInto l) ∧
    ((Json.canonicalMembers r.members).length = r.size ↔
      ∀ k ∈ x.plan.promised, ∀ l ∈ x.plan.promised, ¬ k.RunsInto l) ∧
    ((∀ k ∈ x.plan.promised, ∀ l ∈ x.plan.promised, ¬ k.RunsInto l) →
      ∀ k v, r.get? k = some v → (Json.object r.members).get? k.text = some v.toJson) := by
  have wired := Plan.compile_wellWired compiled
  have ok : ∀ s ∈ x.starts, (s.attempt x.interval x.scope).isFailed = false :=
    (Execution.execute_isOk_iff fresh).mp (by rw [ends]; rfl)
  have results : x.execute.2.results = r := by
    rw [execute_eq fresh] at ends ⊢
    split at ends
    · cases ends
    · exact Except.ok.inj ends
  have keys : r.keys.Perm x.plan.promised := by
    rw [← results, Execution.execute_results fresh]
    exact Execution.keys_results_perm wired ok
  have distinct : r.keys.Nodup := by
    rw [← results, Execution.execute_results fresh]
    exact Keyed.nodup_keys_ofList _
  -- The results are what the plan promises in another order.
  have apart : (r.keys.map OutputKey.text).Nodup ↔
      ∀ k ∈ x.plan.promised, ∀ l ∈ x.plan.promised, ¬ k.RunsInto l := by
    rw [OutputKey.nodup_texts_iff distinct]
    simp only [keys.mem_iff]
  refine ⟨?_, ?_, ?_, ?_⟩
  · rw [← results]
    rfl
  · rw [← apart]
    constructor
    · intro differ
      refine distinct.map_on fun k hk l hl alike => ?_
      exact Classical.byContradiction fun ne => differ k hk l hl ne alike
    · exact fun nodup k hk l hl ne alike => ne (List.inj_on_of_nodup_map nodup hk hl alike)
  · rw [← apart, ← r.names_members, ← Json.length_canonicalMembers_iff]
    simp [Results.members, Keyed.size]
  · intro none k v there
    have entry := (Keyed.get?_eq_some_iff distinct).mp there
    refine Json.get?_of_nodup (by rw [r.names_members]; exact apart.mpr none) ?_
    exact List.mem_map.mpr ⟨(k, v), entry, rfl⟩

/-- A node that is named like another one up to a dot, and names its output after
what follows. -/
def sharedName : List NodeSpec := [
  { name := "a.b", type := "Echo", params := [("echo", .int 7)] },
  { name := "a", type := "Echo", inputs := [⟨"b.output", ⟨"a.b", "output"⟩⟩] }]

theorem written_apart_iff_sharedName : ∃ (x : Execution) (r : Results),
    Plan.compile .builtin sharedName = .ok x.plan ∧ x.trace = none ∧ x.execute.1 = .ok r ∧
      (Json.canonicalMembers r.members).length ≠ r.size := by
  let run (p : CompiledPlan) : Execution := { plan := p, interval := ⟨0, 10, by decide⟩, scope := {} }
  have checks : ((Plan.compile .builtin sharedName).map fun p =>
      (run p).execute.1.isOk &&
      p.promised == [⟨"a.b", "output"⟩, ⟨"a", "b.output"⟩]).toOption = some true := by decide +kernel
  cases compiled : Plan.compile .builtin sharedName with
  | error e => simp [compiled, Except.map, Except.toOption] at checks
  | ok p =>
    obtain ⟨isOk, promised⟩ : (run p).execute.1.isOk = true ∧
        p.promised = [⟨"a.b", "output"⟩, ⟨"a", "b.output"⟩] := by
      simpa [compiled, Except.map, Except.toOption] using checks
    cases ends : (run p).execute.1 with
    | error e => rw [ends] at isOk; cases isOk
    | ok r =>
      have counted := (written_apart_iff (x := run p) compiled rfl ends).2.2.1
      have promised' : (run p).plan.promised = [⟨"a.b", "output"⟩, ⟨"a", "b.output"⟩] := promised
      refine ⟨run p, r, rfl, rfl, ends, fun same => ?_⟩
      have into : OutputKey.RunsInto ⟨"a", "b.output"⟩ ⟨"a.b", "output"⟩ := ⟨"b", rfl, rfl⟩
      exact counted.mp same _ (by simp [promised']) _ (by simp [promised']) into

end DetectionPlan
