/-
Which plans compile, and why the others do not. `Acceptable` says what a plan has to be
like, `Refusal` what a plan is refused for; `compile_accepts_exactly` says that compiling
decides between the two and that it asks no operator to look at a task.
-/
import DetectionPlan.Proofs.Plan.Cycle
import DetectionPlan.Proofs.Plan.Wiring

namespace DetectionPlan

open Outcome (bind_ok_iff bind_error_iff mapM_ok_iff mapM_error_iff)
open Relation (TransGen)

/-- All outputs of a node: those it names, or those of its operator if it names none. -/
def NodeSpec.promised (registry : OperatorRegistry) (s : NodeSpec) : List String :=
  if s.outputs.isEmpty then (registry.get? s.type).elim [] (·.outputs.resolve s) else s.outputs

namespace Plan

variable {registry : OperatorRegistry} {specs : List NodeSpec}

/-! ## What is asked of a plan -/

/-- The operator of a node is known. -/
def Known (registry : OperatorRegistry) (s : NodeSpec) : Prop :=
  ∃ operator, registry.get? s.type = some operator

/-- A node of the plan has the name, and the output among its outputs. -/
def Promises (registry : OperatorRegistry) (specs : List NodeSpec) (k : OutputKey) : Prop :=
  ∃ s ∈ specs, s.name = k.node ∧ k.output ∈ s.promised registry

/-- Inputs under different names, each of an output that exists. -/
structure Wired (registry : OperatorRegistry) (specs : List NodeSpec) (inputs : List InputBinding) :
    Prop where
  properties : (inputs.map (·.property)).Nodup
  sources : ∀ b ∈ inputs, Promises registry specs b.source

/-- The node of one name reads from the node of the other. -/
def Reads (specs : List NodeSpec) (reader source : String) : Prop :=
  ∃ s ∈ specs, s.name = reader ∧ ∃ b ∈ s.inputs, b.source.node = source

/-- What a plan has to be like. -/
structure Acceptable (registry : OperatorRegistry) (specs : List NodeSpec) : Prop where
  names : (specs.map (·.name)).Nodup
  known : ∀ s ∈ specs, Known registry s
  wired : ∀ s ∈ specs, Wired registry specs s.inputs
  acyclic : ∀ name, ¬ TransGen (Reads specs) name name

/-! ## What a plan is refused for -/

/-- What is wrong with an input of a node that has other inputs under the names `taken`. -/
inductive InputRefusal (registry : OperatorRegistry) (specs : List NodeSpec) (reader : String)
    (taken : List String) (b : InputBinding) : Failure → Prop where
  | property (repeated : b.property ∈ taken) :
      InputRefusal registry specs reader taken b (.duplicateInput reader b.property)
  | source (fresh : b.property ∉ taken) (unknown : ∀ s ∈ specs, s.name ≠ b.source.node) :
      InputRefusal registry specs reader taken b (.unknownSourceNode reader b.source.node)
  | output (fresh : b.property ∉ taken) (known : ∃ s ∈ specs, s.name = b.source.node)
      (undeclared : ¬ Promises registry specs b.source) :
      InputRefusal registry specs reader taken b
        (.unknownSourceOutput reader b.source.node b.source.output)

open Classical in
/-- The names of the nodes that read, directly or through others, from a node that reads
from itself. -/
noncomputable def stuckNames (specs : List NodeSpec) : List String :=
  (specs.map (·.name)).filter fun name => ReachesCycle (Reads specs) name

/-- What a plan is refused for: the first thing that is wrong with it. Names come before
operators, these before inputs, and these before cycles; of each kind, what is wrong with
an earlier node or input comes first. -/
inductive Refusal (registry : OperatorRegistry) (specs : List NodeSpec) : Failure → Prop where
  | name {before s after} (split : specs = before ++ s :: after)
      (distinct : (before.map (·.name)).Nodup) (repeated : s.name ∈ before.map (·.name)) :
      Refusal registry specs (.duplicateNode s.name)
  | operator {before s after} (names : (specs.map (·.name)).Nodup)
      (split : specs = before ++ s :: after) (known : ∀ t ∈ before, Known registry t)
      (unknown : ¬ Known registry s) : Refusal registry specs (.unknownOperatorType s.name s.type)
  | input {before s after earlier b later e} (names : (specs.map (·.name)).Nodup)
      (known : ∀ t ∈ specs, Known registry t) (split : specs = before ++ s :: after)
      (wired : ∀ t ∈ before, Wired registry specs t.inputs)
      (inputs : s.inputs = earlier ++ b :: later) (earlierWired : Wired registry specs earlier)
      (refused : InputRefusal registry specs s.name (earlier.map (·.property)) b e) :
      Refusal registry specs e
  | cycle {name} (names : (specs.map (·.name)).Nodup) (known : ∀ t ∈ specs, Known registry t)
      (wired : ∀ t ∈ specs, Wired registry specs t.inputs)
      (cyclic : TransGen (Reads specs) name name) :
      Refusal registry specs (.circularDependency
        ("cycle detected among nodes: " ++ String.intercalate " -> " (stuckNames specs)))

/-! ## Names and operators -/

/-- Names that are new and distinct are gone over. -/
theorem firstRepeat?_append {seen before : List String} (nodup : before.Nodup)
    (fresh : ∀ n ∈ before, n ∉ seen) (rest : List String) :
    firstRepeat? seen (before ++ rest) = firstRepeat? (before.reverse ++ seen) rest := by
  induction before generalizing seen with
  | nil => rfl
  | cons first before ih =>
    obtain ⟨new, nodup⟩ := List.nodup_cons.mp nodup
    have unseen : ∀ n ∈ before, n ∉ first :: seen := by
      intro n hn hs
      rcases List.mem_cons.mp hs with rfl | hs
      · exact new hn
      · exact fresh n (List.mem_cons_of_mem _ hn) hs
    have head : seen.contains first = false := by simpa using fresh first List.mem_cons_self
    rw [List.cons_append, firstRepeat?, head, if_neg Bool.false_ne_true, ih nodup unseen]
    simp

theorem exists_of_firstRepeat?_eq_some {seen names : List String} {name : String}
    (h : firstRepeat? seen names = some name) : ∃ before after, names = before ++ name :: after ∧
      before.Nodup ∧ (∀ n ∈ before, n ∉ seen) ∧ (name ∈ before ∨ name ∈ seen) := by
  induction names generalizing seen with
  | nil => cases h
  | cons first rest ih =>
    unfold firstRepeat? at h
    split at h
    next again =>
      obtain rfl := Option.some.inj h
      exact ⟨[], rest, rfl, List.nodup_nil, by simp, .inr (List.contains_iff_mem.mp again)⟩
    next new =>
      have new : first ∉ seen := by simpa using new
      obtain ⟨before, after, rfl, nodup, fresh, again⟩ := ih h
      refine ⟨first :: before, after, rfl, ?_, ?_, ?_⟩
      · exact List.nodup_cons.mpr ⟨fun hm => fresh first hm List.mem_cons_self, nodup⟩
      · exact List.forall_mem_cons.mpr ⟨new, fun n hn hs => fresh n hn (List.mem_cons_of_mem _ hs)⟩
      · simp only [List.mem_cons] at again ⊢
        tauto

theorem firstRepeat?_eq_some_iff {seen names : List String} {name : String} :
    firstRepeat? seen names = some name ↔ ∃ before after, names = before ++ name :: after ∧
      before.Nodup ∧ (∀ n ∈ before, n ∉ seen) ∧ (name ∈ before ∨ name ∈ seen) := by
  refine ⟨exists_of_firstRepeat?_eq_some, ?_⟩
  rintro ⟨before, after, rfl, nodup, fresh, again⟩
  have known : (before.reverse ++ seen).contains name = true := by simpa using again
  rw [firstRepeat?_append nodup fresh, firstRepeat?, known, if_pos rfl]

theorem resolve_ok_iff {s : NodeSpec} {n : CompiledNode} : resolve registry s = .ok n ↔
    ∃ operator, registry.get? s.type = some operator ∧
      n = ⟨{ s with outputs := s.promised registry }, operator⟩ := by
  unfold resolve NodeSpec.promised
  cases registry.get? s.type with
  | none => simp
  | some operator =>
    simp only [Option.elim_some, Except.ok.injEq, Option.some.injEq, exists_eq_left']
    exact eq_comm

theorem resolve_error_iff {s : NodeSpec} {e : Failure} : resolve registry s = .error e ↔
    ¬ Known registry s ∧ e = .unknownOperatorType s.name s.type := by
  unfold resolve Known
  cases registry.get? s.type with
  | none => simp [eq_comm]
  | some operator => simp

theorem known_iff {s : NodeSpec} : Known registry s ↔ ∃ n, resolve registry s = .ok n := by
  simp only [resolve_ok_iff, Known]
  exact ⟨fun ⟨o, h⟩ => ⟨_, o, h, rfl⟩, fun ⟨_, o, h, _⟩ => ⟨o, h⟩⟩

/-! ## Inputs -/

/-- The nodes of a plan with their operators and outputs. -/
abbrev Resolved (registry : OperatorRegistry) (specs : List NodeSpec) (nodes : List CompiledNode) : Prop :=
  List.Forall₂ (fun s n => resolve registry s = .ok n) specs nodes

namespace Resolved

variable {nodes : List CompiledNode} (h : Resolved registry specs nodes)
include h

theorem exists_mem_iff (P : NodeSpec → Prop) :
    (∃ n ∈ nodes, P n.spec) ↔ ∃ s ∈ specs, P { s with outputs := s.promised registry } := by
  constructor
  · rintro ⟨n, hn, hP⟩
    obtain ⟨s, hs, hr⟩ := Outcome.exists_mem_of_forall₂ h.flip hn
    obtain ⟨operator, -, rfl⟩ := resolve_ok_iff.mp hr
    exact ⟨s, hs, hP⟩
  · rintro ⟨s, hs, hP⟩
    obtain ⟨n, hn, hr⟩ := Outcome.exists_mem_of_forall₂ h hs
    obtain ⟨operator, -, rfl⟩ := resolve_ok_iff.mp hr
    exact ⟨_, hn, hP⟩

/-- When names differ, the place of a source is that of the node whose name it has. -/
theorem findIdx?_eq (names : (specs.map (·.name)).Nodup) {n : CompiledNode} {place : Nat}
    (hn : nodes[place]? = some n) : nodes.findIdx? (·.spec.name == n.spec.name) = some place := by
  obtain ⟨lt, rfl⟩ := List.getElem?_eq_some_iff.mp hn
  rw [← map_name_of_resolved h] at names
  refine List.findIdx?_eq_some_iff_getElem.mpr ⟨lt, by simp, fun j hj => ?_⟩
  let earlier : Fin (nodes.map (·.spec.name)).length := ⟨j, by simp; omega⟩
  let here : Fin (nodes.map (·.spec.name)).length := ⟨place, by simpa using lt⟩
  have differ : earlier ≠ here := by simp [earlier, here]; omega
  simpa [earlier, here] using (List.nodup_iff_injective_get.mp names).ne differ

theorem sourceOf_ok_iff (names : (specs.map (·.name)).Nodup) {reader : NodeSpec} {b : InputBinding}
    {place : Nat} : sourceOf nodes reader b = .ok place ↔ ∃ n, nodes[place]? = some n ∧
      n.spec.name = b.source.node ∧ b.source.output ∈ n.spec.outputs := by
  refine ⟨sourceOf_ok, ?_⟩
  rintro ⟨n, hn, name, output⟩
  unfold sourceOf
  rw [← name, h.findIdx?_eq names hn]
  simp [hn, output]

theorem exists_sourceOf_ok_iff (names : (specs.map (·.name)).Nodup) (reader : NodeSpec)
    (b : InputBinding) :
    (∃ place, sourceOf nodes reader b = .ok place) ↔ Promises registry specs b.source := by
  have there := h.exists_mem_iff fun s => s.name = b.source.node ∧ b.source.output ∈ s.outputs
  refine Iff.trans ?_ there
  simp only [h.sourceOf_ok_iff names, List.mem_iff_getElem?]
  exact ⟨fun ⟨p, n, hn, hP⟩ => ⟨n, ⟨p, hn⟩, hP⟩, fun ⟨n, ⟨p, hn⟩, hP⟩ => ⟨p, n, hn, hP⟩⟩

/-- No place is found for a name that no node has. -/
theorem findIdx?_eq_none_iff {name : String} :
    nodes.findIdx? (·.spec.name == name) = none ↔ ∀ s ∈ specs, s.name ≠ name := by
  have node := h.exists_mem_iff fun s => s.name = name
  rw [List.findIdx?_eq_none_iff]
  constructor
  · intro none s hs same
    obtain ⟨n, hn, same⟩ := node.mpr ⟨s, hs, same⟩
    exact beq_eq_false_iff_ne.mp (none n hn) same
  · intro unknown n hn
    refine beq_eq_false_iff_ne.mpr fun same => ?_
    obtain ⟨s, hs, same⟩ := node.mp ⟨n, hn, same⟩
    exact unknown s hs same

omit h in
/-- An input fails in two ways: its node is not found, or the node that is found
does not have its output. -/
theorem sourceOf_error_cases {reader : NodeSpec} {b : InputBinding} {e : Failure} :
    sourceOf nodes reader b = .error e ↔
      (nodes.findIdx? (·.spec.name == b.source.node) = none ∧
        e = .unknownSourceNode reader.name b.source.node) ∨
      (nodes.findIdx? (·.spec.name == b.source.node) ≠ none ∧
        (¬ ∃ place, sourceOf nodes reader b = .ok place) ∧
        e = .unknownSourceOutput reader.name b.source.node b.source.output) := by
  unfold sourceOf
  cases nodes.findIdx? (·.spec.name == b.source.node) with
  | none => simp [eq_comm]
  | some place =>
    simp only
    split
    · simp
    · simp [eq_comm]

theorem sourceOf_error_iff (names : (specs.map (·.name)).Nodup) {reader : NodeSpec}
    {b : InputBinding} {taken : List String} {e : Failure} (fresh : b.property ∉ taken) :
    sourceOf nodes reader b = .error e ↔ InputRefusal registry specs reader.name taken b e := by
  rw [sourceOf_error_cases, Ne, h.findIdx?_eq_none_iff, h.exists_sourceOf_ok_iff names]
  constructor
  · rintro (⟨unknown, rfl⟩ | ⟨known, undeclared, rfl⟩)
    · exact .source fresh unknown
    · exact .output fresh (by simpa using known) undeclared
  · rintro (again | ⟨-, unknown⟩ | ⟨-, known, undeclared⟩)
    · exact absurd again fresh
    · exact .inl ⟨unknown, rfl⟩
    · exact .inr ⟨by simpa using known, undeclared, rfl⟩

end Resolved

theorem InputRefusal.congr {reader : String} {taken taken' : List String} {b : InputBinding}
    {e : Failure} (same : b.property ∈ taken ↔ b.property ∈ taken')
    (h : InputRefusal registry specs reader taken b e) :
    InputRefusal registry specs reader taken' b e := by
  cases h with
  | property again => exact .property (same.mp again)
  | source fresh unknown => exact .source (mt same.mpr fresh) unknown
  | output fresh known undeclared => exact .output (mt same.mpr fresh) known undeclared

namespace Resolved

variable {nodes : List CompiledNode} (h : Resolved registry specs nodes)
  (names : (specs.map (·.name)).Nodup)
include h names

/-- Inputs that are wired and whose names are not taken pass the checks. -/
theorem sourcesOf_append {reader : NodeSpec} {taken : List String} {earlier : List InputBinding}
    (wired : Wired registry specs earlier) (fresh : ∀ b ∈ earlier, b.property ∉ taken)
    (found : List Nat) (rest : List InputBinding) :
    ∃ found', sourcesOf nodes reader taken found (earlier ++ rest) =
      sourcesOf nodes reader ((earlier.map (·.property)).reverse ++ taken) found' rest := by
  induction earlier generalizing taken found with
  | nil => exact ⟨found, rfl⟩
  | cons b earlier ih =>
    obtain ⟨new, nodup⟩ := List.nodup_cons.mp wired.properties
    obtain ⟨place, ok⟩ := (h.exists_sourceOf_ok_iff names reader b).mpr (wired.sources b List.mem_cons_self)
    have unseen : ∀ c ∈ earlier, c.property ∉ b.property :: taken := by
      intro c hc ht
      rcases List.mem_cons.mp ht with same | ht
      · exact new (List.mem_map.mpr ⟨c, hc, same⟩)
      · exact fresh c (List.mem_cons_of_mem _ hc) ht
    obtain ⟨found', passes⟩ := ih ⟨nodup, fun c hc => wired.sources c (List.mem_cons_of_mem _ hc)⟩
      unseen (if found.contains place then found else found ++ [place])
    refine ⟨found', ?_⟩
    simp only [List.cons_append, sourcesOf, List.contains_iff_mem, fresh b List.mem_cons_self, if_false, ok]
    simpa [bind, Except.bind] using passes

/-- The checks of some inputs succeed when the inputs are wired and no name is taken. -/
theorem sourcesOf_ok_iff {reader : NodeSpec} {taken : List String} {found : List Nat}
    {inputs : List InputBinding} :
    (∃ places, sourcesOf nodes reader taken found inputs = .ok places) ↔
      Wired registry specs inputs ∧ ∀ b ∈ inputs, b.property ∉ taken := by
  constructor
  · rintro ⟨places, ok⟩
    obtain ⟨-, nodup, fresh, placed⟩ := sourcesOf_ok ok
    refine ⟨⟨nodup, fun b hb => ?_⟩, fresh⟩
    obtain ⟨place, -, ok⟩ := placed b hb
    exact (h.exists_sourceOf_ok_iff names reader b).mp ⟨place, ok⟩
  · rintro ⟨wired, fresh⟩
    obtain ⟨found', passes⟩ := h.sourcesOf_append names wired fresh found []
    exact ⟨found', by simpa [sourcesOf] using passes⟩

/-- The checks fail at the first input if something is wrong with it. -/
theorem sourcesOf_error_head {reader : NodeSpec} {taken : List String} {found : List Nat}
    {b : InputBinding} {rest : List InputBinding} {e : Failure}
    (refused : InputRefusal registry specs reader.name taken b e) :
    sourcesOf nodes reader taken found (b :: rest) = .error e := by
  by_cases repeated : b.property ∈ taken
  · cases refused with
    | property => simp [sourcesOf, repeated]
    | source new => exact absurd repeated new
    | output new => exact absurd repeated new
  · have failed := (h.sourceOf_error_iff names repeated).mpr refused
    simp only [sourcesOf, List.contains_iff_mem, repeated, if_false, failed]
    rfl

/-- Where the checks fail, all inputs before some input pass them, and something is wrong with it. -/
theorem exists_of_sourcesOf_error {reader : NodeSpec} {taken : List String} {found : List Nat}
    {inputs : List InputBinding} {e : Failure} (failed : sourcesOf nodes reader taken found inputs = .error e) :
    ∃ earlier b later, inputs = earlier ++ b :: later ∧ Wired registry specs earlier ∧
      (∀ c ∈ earlier, c.property ∉ taken) ∧
      InputRefusal registry specs reader.name (earlier.map (·.property) ++ taken) b e := by
  induction inputs generalizing taken found with
  | nil => cases failed
  | cons first rest ih =>
    have here (refused : InputRefusal registry specs reader.name taken first e) :
        ∃ earlier b later, first :: rest = earlier ++ b :: later ∧ Wired registry specs earlier ∧
          (∀ c ∈ earlier, c.property ∉ taken) ∧
          InputRefusal registry specs reader.name (earlier.map (·.property) ++ taken) b e :=
      ⟨[], first, rest, rfl, ⟨List.nodup_nil, by simp⟩, by simp, refused⟩
    by_cases repeated : first.property ∈ taken
    · simp only [sourcesOf, List.contains_iff_mem, repeated, if_true] at failed
      obtain rfl := Except.error.inj failed
      exact here (.property repeated)
    · simp only [sourcesOf, List.contains_iff_mem, repeated, if_false, bind_error_iff,
        h.sourceOf_error_iff names repeated] at failed
      rcases failed with refused | ⟨place, ok, failed⟩
      · exact here refused
      obtain ⟨earlier, b, later, rfl, wired, fresh, refused⟩ := ih failed
      refine ⟨first :: earlier, b, later, rfl, ⟨?_, ?_⟩, ?_, refused.congr (by simp [or_left_comm])⟩
      · refine List.nodup_cons.mpr ⟨fun again => ?_, wired.properties⟩
        obtain ⟨c, hc, same⟩ := List.mem_map.mp again
        exact fresh c hc (same ▸ List.mem_cons_self)
      · exact List.forall_mem_cons.mpr
          ⟨(h.exists_sourceOf_ok_iff names reader first).mp ⟨place, ok⟩, wired.sources⟩
      · exact List.forall_mem_cons.mpr ⟨repeated, fun c hc t => fresh c hc (List.mem_cons_of_mem _ t)⟩

/-- The checks of some inputs fail as the first input does with which something is wrong. -/
theorem sourcesOf_error_iff (reader : NodeSpec) (taken : List String) (found : List Nat)
    (inputs : List InputBinding) {e : Failure} :
    sourcesOf nodes reader taken found inputs = .error e ↔ ∃ earlier b later,
      inputs = earlier ++ b :: later ∧ Wired registry specs earlier ∧
      (∀ c ∈ earlier, c.property ∉ taken) ∧
      InputRefusal registry specs reader.name (earlier.map (·.property) ++ taken) b e := by
  refine ⟨h.exists_of_sourcesOf_error names, ?_⟩
  rintro ⟨earlier, b, later, rfl, wired, fresh, refused⟩
  obtain ⟨found', passes⟩ := h.sourcesOf_append names wired fresh found (b :: later)
  rw [passes]
  exact h.sourcesOf_error_head names (refused.congr (by simp))

end Resolved

/-- The places found are those of sources of the inputs. -/
theorem mem_of_sourcesOf {nodes : List CompiledNode} {reader : NodeSpec} {taken : List String}
    {found places : List Nat} {inputs : List InputBinding}
    (ok : sourcesOf nodes reader taken found inputs = .ok places) {place : Nat}
    (hp : place ∈ places) :
    place ∈ found ∨ ∃ b ∈ inputs, sourceOf nodes reader b = .ok place := by
  induction inputs generalizing taken found with
  | nil =>
    obtain rfl := Except.ok.inj ok
    exact .inl hp
  | cons b rest ih =>
    simp only [sourcesOf] at ok
    split at ok
    · cases ok
    obtain ⟨first, hf, ok⟩ := bind_ok_iff.mp ok
    rcases ih ok with old | ⟨c, hc, h⟩
    · split at old
      · exact .inl old
      · rcases List.mem_append.mp old with old | new
        · exact .inl old
        · obtain rfl := List.mem_singleton.mp new
          exact .inr ⟨b, List.mem_cons_self, hf⟩
    · exact .inr ⟨c, List.mem_cons_of_mem _ hc, h⟩

/-! ## Cycles -/

namespace Resolved

variable {nodes : List CompiledNode} (h : Resolved registry specs nodes)

include h in
theorem reads_iff {reader source : String} : Reads specs reader source ↔
    ∃ n ∈ nodes, n.spec.name = reader ∧ ∃ b ∈ n.spec.inputs, b.source.node = source :=
  (h.exists_mem_iff fun s => s.name = reader ∧ ∃ b ∈ s.inputs, b.source.node = source).symm

variable {deps : Dependencies} (names : (specs.map (·.name)).Nodup)
  (hd : List.Forall₂ (fun n sources => sourcesOf nodes n.spec [] [] n.spec.inputs = .ok sources)
    nodes deps)
include h names hd

/-- A node reads from a place when the node there has the name that one of its inputs names. -/
theorem sources_iff {i j : Nat} {n : CompiledNode} (hn : nodes[i]? = some n) :
    deps.Reads i j ↔ ∃ m, nodes[j]? = some m ∧ Reads specs n.spec.name m.spec.name := by
  obtain ⟨lt, rfl⟩ := List.getElem?_eq_some_iff.mp hn
  have lt' : i < deps.length := hd.length_eq ▸ lt
  have found := (List.forall₂_iff_get.mp hd).2 i lt lt'
  have here : deps.Reads i j ↔ j ∈ deps[i] := by simp [Dependencies.Reads, Dependencies.sources, lt']
  rw [here]
  constructor
  · intro hj
    obtain ⟨b, hb, ok⟩ := (mem_of_sourcesOf found hj).resolve_left (by simp)
    obtain ⟨m, hm, name, -⟩ := sourceOf_ok ok
    exact ⟨m, hm, h.reads_iff.mpr ⟨nodes[i], List.getElem_mem lt, rfl, b, hb, name.symm⟩⟩
  · rintro ⟨m, hm, reads⟩
    obtain ⟨n, hn', name, b, hb, source⟩ := h.reads_iff.mp reads
    have distinct := names
    rw [← map_name_of_resolved h] at distinct
    obtain rfl := List.inj_on_of_nodup_map distinct hn' (List.getElem_mem lt) name
    obtain ⟨-, -, -, placed⟩ := sourcesOf_ok found
    obtain ⟨place, mem, ok⟩ := placed b hb
    obtain ⟨m', hm', name', -⟩ := sourceOf_ok ok
    have same : some place = some j := by
      rw [← h.findIdx?_eq names hm', ← h.findIdx?_eq names hm, name', source]
    exact Option.some.inj same ▸ mem

theorem bounded (i : Nat) : ∀ j ∈ deps.sources i, j < deps.length := by
  intro j hj
  by_cases lt : i < nodes.length
  · obtain ⟨m, hm, -⟩ := (h.sources_iff names hd (List.getElem?_eq_getElem lt)).mp hj
    exact hd.length_eq ▸ (List.getElem?_eq_some_iff.mp hm).1
  · have none : deps.sources i = [] := by
      have : ¬ i < deps.length := hd.length_eq ▸ lt
      simp [Dependencies.sources, this]
    simp [none] at hj

theorem reachesCycle_iff {i : Nat} {n : CompiledNode} (hn : nodes[i]? = some n) :
    ReachesCycle deps.Reads i ↔ ReachesCycle (Reads specs) n.spec.name := by
  have distinct := names
  rw [← map_name_of_resolved h] at distinct
  constructor
  · refine ReachesCycle.simulate (R := fun i name => ∃ n, nodes[i]? = some n ∧ n.spec.name = name)
      ?_ ?_ ⟨n, hn, rfl⟩
    · rintro i _ ⟨n, hn, rfl⟩ j reads
      obtain ⟨m, hm, reads⟩ := (h.sources_iff names hd hn).mp reads
      exact ⟨_, ⟨m, hm, rfl⟩, reads⟩
    · rintro i _ _ ⟨n, hn, rfl⟩ ⟨m, hm, rfl⟩
      rw [Option.some.inj (hn.symm.trans hm)]
  · refine ReachesCycle.simulate (R := fun name i => ∃ n, nodes[i]? = some n ∧ n.spec.name = name)
      ?_ ?_ ⟨n, hn, rfl⟩
    · rintro _ i ⟨n, hn, rfl⟩ source reads
      obtain ⟨n', hn', name, b, hb, rfl⟩ := h.reads_iff.mp reads
      obtain ⟨k, lt, rfl⟩ := List.mem_iff_getElem.mp hn'
      have found := (List.forall₂_iff_get.mp hd).2 k lt (hd.length_eq ▸ lt)
      obtain ⟨-, -, -, placed⟩ := sourcesOf_ok found
      obtain ⟨place, -, ok⟩ := placed b hb
      obtain ⟨m, hm, name', -⟩ := sourceOf_ok ok
      exact ⟨place, ⟨m, hm, name'⟩, (h.sources_iff names hd hn).mpr ⟨m, hm, name'.symm ▸ reads⟩⟩
    · rintro _ i j ⟨n, hn, rfl⟩ ⟨m, hm, same⟩
      have place := h.findIdx?_eq names hm
      rw [same, h.findIdx?_eq names hn] at place
      exact Option.some.inj place

open Classical in
theorem names_pick_stuck :
    (pick nodes ((List.range deps.length).filter fun n => ReachesCycle deps.Reads n)).map
      (·.spec.name) = stuckNames specs := by
  have all := pick_range nodes
  rw [pick] at all
  rw [stuckNames, ← map_name_of_resolved h, List.filter_map]
  refine congrArg (List.map fun n : CompiledNode => n.spec.name) ?_
  conv_rhs => rw [← all]
  rw [pick, List.filterMap_filter, List.filter_filterMap, hd.length_eq]
  refine List.filterMap_congr fun i _ => ?_
  cases hn : nodes[i]? with
  | none => simp
  | some n => simp [h.reachesCycle_iff names hd hn, Option.filter]

/-- An order is missing exactly when a node reads, directly or through others, from itself. -/
theorem order_error_iff {e : Failure} :
    (∃ stuck, deps.order = .error stuck ∧ e = .circularDependency (cycleText nodes stuck)) ↔
      (∃ name, TransGen (Reads specs) name name) ∧ e = .circularDependency
        ("cycle detected among nodes: " ++ String.intercalate " -> " (stuckNames specs)) := by
  have error {stuck : List Nat} (missing : deps.order = .error stuck) :=
    Dependencies.order_error missing (h.bounded names hd)
  have text {stuck : List Nat} (missing : deps.order = .error stuck) : cycleText nodes stuck =
      "cycle detected among nodes: " ++ String.intercalate " -> " (stuckNames specs) := by
    have same : (pick nodes stuck).map (·.spec.name) = stuckNames specs := by
      rw [(error missing).2]
      exact h.names_pick_stuck names hd
    rw [← same]
    rfl
  constructor
  · rintro ⟨stuck, missing, rfl⟩
    obtain ⟨i, hi⟩ := List.exists_mem_of_ne_nil _ (error missing).1
    rw [(error missing).2] at hi
    simp only [List.mem_filter, List.mem_range, decide_eq_true_eq, ← hd.length_eq] at hi
    obtain ⟨c, -, cycle⟩ := (h.reachesCycle_iff names hd (List.getElem?_eq_getElem hi.1)).mp hi.2
    exact ⟨⟨c, cycle⟩, congrArg Failure.circularDependency (text missing)⟩
  · rintro ⟨⟨name, cycle⟩, rfl⟩
    obtain ⟨source, reads, -⟩ := TransGen.head'_iff.mp cycle
    obtain ⟨n, hn, rfl, -⟩ := h.reads_iff.mp reads
    obtain ⟨i, lt, rfl⟩ := List.mem_iff_getElem.mp hn
    have cyclic := (h.reachesCycle_iff names hd (List.getElem?_eq_getElem lt)).mpr ⟨_, .refl, cycle⟩
    cases outcome : deps.order with
    | ok order => exact absurd cyclic (Dependencies.order_ok_acyclic outcome (hd.length_eq ▸ lt))
    | error stuck => exact ⟨stuck, rfl, congrArg Failure.circularDependency (text outcome).symm⟩

end Resolved

/-! ## The checks of all inputs -/

namespace Resolved

variable {nodes : List CompiledNode} (h : Resolved registry specs nodes)
  (names : (specs.map (·.name)).Nodup)
include h names

theorem exists_sourcesOf_ok_iff {n : CompiledNode} :
    (∃ places, sourcesOf nodes n.spec [] [] n.spec.inputs = .ok places) ↔
      Wired registry specs n.spec.inputs := by
  simp [h.sourcesOf_ok_iff names]

theorem exists_dependencies_ok_iff : (∃ deps, dependencies nodes = .ok deps) ↔
    ∀ s ∈ specs, Wired registry specs s.inputs := by
  constructor
  · rintro ⟨deps, hd⟩ s hs
    obtain ⟨n, hn, hr⟩ := Outcome.exists_mem_of_forall₂ h hs
    obtain ⟨places, -, ok⟩ := Outcome.exists_mem_of_forall₂ (mapM_ok_iff.mp hd) hn
    obtain ⟨operator, -, rfl⟩ := resolve_ok_iff.mp hr
    exact (h.exists_sourcesOf_ok_iff names).mp ⟨places, ok⟩
  · intro all
    refine Outcome.exists_mapM_ok fun n hn => (h.exists_sourcesOf_ok_iff names).mpr ?_
    obtain ⟨s, hs, hr⟩ := Outcome.exists_mem_of_forall₂ h.flip hn
    obtain ⟨operator, -, rfl⟩ := resolve_ok_iff.mp hr
    exact all s hs

theorem dependencies_error_iff {e : Failure} : dependencies nodes = .error e ↔
    ∃ before s after earlier b later, specs = before ++ s :: after ∧
      (∀ t ∈ before, Wired registry specs t.inputs) ∧ s.inputs = earlier ++ b :: later ∧
      Wired registry specs earlier ∧
      InputRefusal registry specs s.name (earlier.map (·.property)) b e := by
  have failed {n : CompiledNode} := h.sourcesOf_error_iff names n.spec [] [] n.spec.inputs (e := e)
  simp only [List.append_nil, List.not_mem_nil, not_false_eq_true, implies_true, true_and] at failed
  simp only [dependencies, mapM_error_iff, failed, h.exists_sourcesOf_ok_iff names]
  constructor
  · rintro ⟨before, n, after, rfl, fine, earlier, b, later, inputs, ok, refused⟩
    obtain ⟨sb, s, sa, rfl, front, hr⟩ := Outcome.forall₂_append_cons_right h
    obtain ⟨operator, -, rfl⟩ := resolve_ok_iff.mp hr
    refine ⟨sb, s, sa, earlier, b, later, rfl, fun t ht => ?_, inputs, ok, refused⟩
    obtain ⟨m, hm, hr⟩ := Outcome.exists_mem_of_forall₂ front ht
    obtain ⟨operator, -, rfl⟩ := resolve_ok_iff.mp hr
    exact fine _ hm
  · rintro ⟨before, s, after, earlier, b, later, rfl, fine, inputs, ok, refused⟩
    obtain ⟨nb, n, na, rfl, front, hr⟩ := Outcome.forall₂_append_cons_right h.flip
    obtain ⟨operator, -, rfl⟩ := resolve_ok_iff.mp hr
    refine ⟨nb, _, na, rfl, fun m hm => ?_, earlier, b, later, inputs, ok, refused⟩
    obtain ⟨t, ht, hr⟩ := Outcome.exists_mem_of_forall₂ front hm
    obtain ⟨operator, -, rfl⟩ := resolve_ok_iff.mp hr
    exact fine t ht

end Resolved

/-! ## The verdict -/

theorem exists_resolved_iff : (∃ nodes, Resolved registry specs nodes) ↔ ∀ s ∈ specs, Known registry s := by
  constructor
  · rintro ⟨nodes, h⟩ s hs
    obtain ⟨n, -, hr⟩ := Outcome.exists_mem_of_forall₂ h hs
    exact known_iff.mpr ⟨n, hr⟩
  · intro known
    obtain ⟨nodes, h⟩ := Outcome.exists_mapM_ok fun s hs => known_iff.mp (known s hs)
    exact ⟨nodes, mapM_ok_iff.mp h⟩

/-- Compiling fails in one of the four checks, and the later ones are not made before the
earlier ones succeed. -/
theorem compile_error_iff {e : Failure} : compile registry specs = .error e ↔
    (∃ name, firstRepeat? [] (specs.map (·.name)) = some name ∧ e = .duplicateNode name) ∨
    (specs.map (·.name)).Nodup ∧ (specs.mapM (resolve registry) = .error e ∨
      ∃ nodes, Resolved registry specs nodes ∧ (dependencies nodes = .error e ∨
        ∃ deps, dependencies nodes = .ok deps ∧ ∃ stuck, deps.order = .error stuck ∧
          e = .circularDependency (cycleText nodes stuck))) := by
  unfold compile
  split
  next name repeated =>
    simp only [← firstRepeat?_nil_eq_none_iff, repeated]
    simp [throw, throwThe, MonadExceptOf.throw, eq_comm]
  next fresh =>
    simp only [← firstRepeat?_nil_eq_none_iff, fresh, reduceCtorEq, false_and, exists_false,
      false_or, true_and, bind_error_iff, mapM_ok_iff]
    refine or_congr_right (exists_congr fun nodes => and_congr_right fun _ =>
      or_congr_right (exists_congr fun deps => and_congr_right fun _ => ?_))
    cases deps.order with
    | ok order => simp [pure, Except.pure]
    | error stuck => simp [throw, throwThe, MonadExceptOf.throw, eq_comm]

theorem compile_error_iff_refusal {e : Failure} :
    compile registry specs = .error e ↔ Refusal registry specs e := by
  rw [compile_error_iff]
  constructor
  · rintro (⟨name, repeated, rfl⟩ | ⟨names, unknown | ⟨nodes, h, failed | ⟨deps, hd, stuck⟩⟩⟩)
    · obtain ⟨before, after, split, distinct, -, again⟩ := firstRepeat?_eq_some_iff.mp repeated
      obtain ⟨sb, rest, rfl, rfl, hr⟩ := List.map_eq_append_iff.mp split
      obtain ⟨s, sa, rfl, rfl, -⟩ := List.map_eq_cons_iff.mp hr
      exact .name rfl distinct (again.resolve_right (by simp))
    · obtain ⟨before, s, after, split, known, failed⟩ := mapM_error_iff.mp unknown
      obtain ⟨missing, rfl⟩ := resolve_error_iff.mp failed
      exact .operator names split (fun t ht => known_iff.mpr (known t ht)) missing
    · obtain ⟨before, s, after, earlier, b, later, split, wired, inputs, ok, refused⟩ :=
        (h.dependencies_error_iff names).mp failed
      exact .input names (exists_resolved_iff.mp ⟨nodes, h⟩) split wired inputs ok refused
    · obtain ⟨⟨name, cyclic⟩, rfl⟩ := (h.order_error_iff names (mapM_ok_iff.mp hd)).mp stuck
      exact .cycle names (exists_resolved_iff.mp ⟨nodes, h⟩)
        ((h.exists_dependencies_ok_iff names).mp ⟨deps, hd⟩) cyclic
  · intro refused
    cases refused with
    | @name before s after split distinct repeated =>
      refine .inl ⟨s.name, firstRepeat?_eq_some_iff.mpr ?_, rfl⟩
      exact ⟨before.map (·.name), after.map (·.name), by simp [split], distinct, by simp, .inl repeated⟩
    | @operator before s after names split known unknown =>
      refine .inr ⟨names, .inl (mapM_error_iff.mpr ?_)⟩
      exact ⟨before, s, after, split, fun t ht => known_iff.mp (known t ht),
        resolve_error_iff.mpr ⟨unknown, rfl⟩⟩
    | @input before s after earlier b later e names known split wired inputs earlierWired refused =>
      obtain ⟨nodes, h⟩ := exists_resolved_iff.mpr known
      refine .inr ⟨names, .inr ⟨nodes, h, .inl ((h.dependencies_error_iff names).mpr ?_)⟩⟩
      exact ⟨before, s, after, earlier, b, later, split, wired, inputs, earlierWired, refused⟩
    | @cycle name names known wired cyclic =>
      obtain ⟨nodes, h⟩ := exists_resolved_iff.mpr known
      obtain ⟨deps, hd⟩ := (h.exists_dependencies_ok_iff names).mpr wired
      refine .inr ⟨names, .inr ⟨nodes, h, .inr ⟨deps, hd, ?_⟩⟩⟩
      exact (h.order_error_iff names (mapM_ok_iff.mp hd)).mpr ⟨⟨name, cyclic⟩, rfl⟩

theorem InputRefusal.not_wired {reader : String} {earlier later : List InputBinding} {b : InputBinding}
    {e : Failure} (h : InputRefusal registry specs reader (earlier.map (·.property)) b e) :
    ¬ Wired registry specs (earlier ++ b :: later) := by
  intro wired
  cases h with
  | property repeated =>
    have nodup := wired.properties
    rw [List.map_append, List.map_cons, List.nodup_append] at nodup
    exact nodup.2.2 _ repeated _ List.mem_cons_self rfl
  | source _ unknown =>
    obtain ⟨s, hs, name, -⟩ := wired.sources b (by simp)
    exact unknown s hs name
  | output _ _ undeclared => exact undeclared (wired.sources b (by simp))

theorem Refusal.not_acceptable {e : Failure} (h : Refusal registry specs e) :
    ¬ Acceptable registry specs := by
  intro ok
  cases h with
  | @name before s after split distinct repeated =>
    have nodup := ok.names
    rw [split, List.map_append, List.map_cons, List.nodup_append] at nodup
    exact nodup.2.2 _ repeated _ List.mem_cons_self rfl
  | operator names split known unknown => exact unknown (ok.known _ (by simp [split]))
  | input names known split wired inputs earlierWired refused =>
    exact refused.not_wired (inputs ▸ ok.wired _ (by simp [split]))
  | cycle names known wired cyclic => exact ok.acyclic _ cyclic

theorem acceptable_of_compile_ok {p : CompiledPlan} (h : compile registry specs = .ok p) :
    Acceptable registry specs := by
  obtain ⟨names, nodes, deps, order, hn, hd, ho, -⟩ := compile_ok_iff.mp h
  have known := exists_resolved_iff.mp ⟨nodes, hn⟩
  have wired := (Resolved.exists_dependencies_ok_iff hn names).mp ⟨deps, mapM_ok_iff.mpr hd⟩
  refine ⟨names, known, wired, fun name cyclic => ?_⟩
  have failed := compile_error_iff_refusal.mpr (Refusal.cycle names known wired cyclic)
  cases h.symm.trans failed

end Plan

/-! ## What operators do -/

section Replaced

variable (work : Operator → Task → Outcome Job)

/-- The operator under another way of working. -/
def Operator.replaced (o : Operator) : Operator := { o with prepare := work o }

/-- Operators that promise the same and do something else. -/
def OperatorRegistry.replaced (registry : OperatorRegistry) : OperatorRegistry :=
  ⟨registry.entries.map fun e => (e.1, e.2.replaced work)⟩

def CompiledNode.replaced (n : CompiledNode) : CompiledNode :=
  { n with operator := n.operator.replaced work }

def CompiledPlan.replaced (p : CompiledPlan) : CompiledPlan where
  nodes := p.nodes.map (·.replaced work)
  order := p.order.map (·.replaced work)
  levels := p.levels.map (·.map (·.replaced work))

namespace Plan

theorem get?_replaced (registry : OperatorRegistry) (type : String) :
    (registry.replaced work).get? type = (registry.get? type).map (·.replaced work) := by
  unfold OperatorRegistry.replaced Keyed.get?
  induction registry.entries with
  | nil => rfl
  | cons e rest ih =>
    obtain ⟨name, operator⟩ := e
    cases same : type == name with
    | true => simp [List.lookup_cons, same]
    | false => simpa [List.lookup_cons, same] using ih

theorem resolve_replaced (registry : OperatorRegistry) (s : NodeSpec) :
    resolve (registry.replaced work) s = (resolve registry s).map (·.replaced work) := by
  unfold resolve
  rw [get?_replaced]
  cases registry.get? s.type <;> rfl

theorem sourceOf_replaced (nodes : List CompiledNode) (reader : NodeSpec) (b : InputBinding) :
    sourceOf (nodes.map (·.replaced work)) reader b = sourceOf nodes reader b := by
  unfold sourceOf
  rw [List.findIdx?_map]
  have same : ((fun n : CompiledNode => n.spec.name == b.source.node) ∘
      fun n : CompiledNode => n.replaced work) = fun n => n.spec.name == b.source.node := rfl
  rw [same]
  cases nodes.findIdx? fun n : CompiledNode => n.spec.name == b.source.node with
  | none => rfl
  | some place =>
    simp only [List.getElem?_map]
    cases nodes[place]? <;> rfl

theorem sourcesOf_replaced (nodes : List CompiledNode) (reader : NodeSpec) (taken : List String)
    (found : List Nat) (inputs : List InputBinding) :
    sourcesOf (nodes.map (·.replaced work)) reader taken found inputs =
      sourcesOf nodes reader taken found inputs := by
  induction inputs generalizing taken found with
  | nil => rfl
  | cons b rest ih => simp only [sourcesOf, sourceOf_replaced, ih]

theorem dependencies_replaced (nodes : List CompiledNode) :
    dependencies (nodes.map (·.replaced work)) = dependencies nodes := by
  simp only [dependencies, List.mapM_map, sourcesOf_replaced]
  rfl

theorem pick_replaced (nodes : List CompiledNode) (places : List Nat) :
    pick (nodes.map (·.replaced work)) places = (pick nodes places).map (·.replaced work) := by
  simp only [pick, List.map_filterMap, List.getElem?_map]

theorem cycleText_replaced (nodes : List CompiledNode) (stuck : List Nat) :
    cycleText (nodes.map (·.replaced work)) stuck = cycleText nodes stuck := by
  have names : (pick (nodes.map (·.replaced work)) stuck).map (·.spec.name) =
      (pick nodes stuck).map (·.spec.name) := by
    rw [pick_replaced, List.map_map]
    rfl
  exact congrArg (fun l => "cycle detected among nodes: " ++ String.intercalate " -> " l) names

/-- Compiling does not depend on what the operators do. -/
theorem compile_replaced (registry : OperatorRegistry) (specs : List NodeSpec) :
    compile (registry.replaced work) specs = (compile registry specs).map (·.replaced work) := by
  have resolved : specs.mapM (resolve (registry.replaced work)) =
      (specs.mapM (resolve registry)).map (List.map (·.replaced work)) := by
    rw [← Outcome.mapM_map]
    exact congrArg (specs.mapM ·) (funext (resolve_replaced work registry))
  unfold compile
  rw [resolved]
  cases firstRepeat? [] (specs.map (·.name)) with
  | some name => rfl
  | none =>
    cases specs.mapM (resolve registry) with
    | error e => rfl
    | ok nodes =>
      simp only [Except.map, bind, Except.bind, dependencies_replaced]
      cases dependencies nodes with
      | error e => rfl
      | ok deps =>
        cases order : deps.order with
        | error stuck => simp [order, cycleText_replaced, throw, throwThe, MonadExceptOf.throw]
        | ok places => simp [order, CompiledPlan.replaced, pick_replaced, pure, Except.pure]

end Plan

end Replaced

/-- **Which plans compile.** A plan compiles exactly when its names differ, its operators
are known, its inputs have different names and name outputs that exist, and no node reads
from itself, directly or through others. Any other plan is refused for the first thing that
is wrong with it. In either case the operators have not been asked to do anything: the
outcome is the same whatever they do. -/
theorem compile_accepts_exactly (registry : OperatorRegistry) (specs : List NodeSpec) :
    ((∃ p, Plan.compile registry specs = .ok p) ↔ Plan.Acceptable registry specs) ∧
    (∀ e, Plan.compile registry specs = .error e ↔ Plan.Refusal registry specs e) ∧
    ∀ work, Plan.compile (registry.replaced work) specs =
      (Plan.compile registry specs).map (·.replaced work) := by
  refine ⟨⟨fun ⟨p, ok⟩ => Plan.acceptable_of_compile_ok ok, fun acceptable => ?_⟩,
    fun e => Plan.compile_error_iff_refusal, fun work => Plan.compile_replaced work registry specs⟩
  cases outcome : Plan.compile registry specs with
  | ok p => exact ⟨p, rfl⟩
  | error e => exact absurd acceptable (Plan.compile_error_iff_refusal.mp outcome).not_acceptable

end DetectionPlan
