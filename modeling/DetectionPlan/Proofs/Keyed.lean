/-
What a list of entries turns into when its keys are written one after the
other. Keys never repeat, so a value is under its key exactly when the two
are an entry; and entries whose keys differ from the start stay as they are.
So a collection is known by its keys and what is found under them (`eq_of_keys`).
-/
import DetectionPlan.Keyed
import Mathlib.Data.List.Nodup

namespace DetectionPlan.Keyed

variable {κ α : Type} [BEq κ] [LawfulBEq κ]

theorem nodup_keys_insert {m : Keyed κ α} (h : m.keys.Nodup) (key : κ) (value : α) :
    (m.insert key value).keys.Nodup := by
  rw [keys_insert]
  split
  · exact h
  · next hk =>
    rw [List.nodup_append]
    refine ⟨h, by simp, ?_⟩
    intro a ha b hb
    rw [List.mem_singleton.mp hb]
    exact fun e => hk (e ▸ ha)

theorem nodup_keys_insertAll {m : Keyed κ α} (h : m.keys.Nodup) (es : List (κ × α)) :
    (m.insertAll es).keys.Nodup := by
  induction es generalizing m with
  | nil => exact h
  | cons e es ih => exact ih (nodup_keys_insert h e.1 e.2)

theorem nodup_keys_ofList (es : List (κ × α)) : (ofList es).keys.Nodup :=
  nodup_keys_insertAll (m := empty) List.nodup_nil es

/-- A value is under its key exactly when the two are an entry. -/
theorem get?_eq_some_iff {m : Keyed κ α} (h : m.keys.Nodup) {key : κ} {value : α} :
    m.get? key = some value ↔ (key, value) ∈ m.entries := by
  obtain ⟨es⟩ := m
  simp only [get?, keys] at h ⊢
  induction es with
  | nil => simp
  | cons e es ih =>
    obtain ⟨k, v⟩ := e
    rw [List.map_cons, List.nodup_cons] at h
    by_cases hk : key = k
    · subst hk
      have hv : ∀ w, (key, w) ∉ es := fun w hw =>
        h.1 (List.mem_map.mpr ⟨(key, w), hw, rfl⟩)
      simp [hv, eq_comm]
    · have hb : (key == k) = false := by simpa using hk
      simp [List.lookup_cons, hb, hk, ih h.2]

/-- A key that is new is written at the end. -/
theorem entries_insert_of_not_mem {m : Keyed κ α} {key : κ} (h : key ∉ m.keys) (value : α) :
    (m.insert key value).entries = m.entries ++ [(key, value)] := by
  obtain ⟨es⟩ := m
  simp only [insert, keys] at h ⊢
  induction es with
  | nil => rfl
  | cons e es ih =>
    obtain ⟨k, v⟩ := e
    simp only [List.map_cons, List.mem_cons, not_or] at h
    have hb : (k == key) = false := by simpa using fun e => h.1 e.symm
    simp [insertEntry, hb, ih h.2]

theorem entries_insertAll_of_nodup {m : Keyed κ α} {es : List (κ × α)}
    (h : (m.keys ++ es.map (·.1)).Nodup) : (m.insertAll es).entries = m.entries ++ es := by
  induction es generalizing m with
  | nil => simp [insertAll]
  | cons e es ih =>
    obtain ⟨k, v⟩ := e
    have hk : k ∉ m.keys := by
      rw [List.nodup_append] at h
      exact fun hm => h.2.2 k hm k (by simp) rfl
    have he := entries_insert_of_not_mem hk v
    have hkeys : (m.insert k v).keys = m.keys ++ [k] := by rw [keys_insert, if_neg hk]
    rw [insertAll, List.foldl_cons]
    change ((m.insert k v).insertAll es).entries = _
    rw [ih (by simpa [hkeys] using h), he]
    simp

/-- Entries whose keys differ stay as they are. -/
theorem entries_ofList_of_nodup {es : List (κ × α)} (h : (es.map (·.1)).Nodup) :
    (ofList es).entries = es := by
  rw [ofList, entries_insertAll_of_nodup (by simpa [keys, empty] using h)]
  rfl

/-- A key reads as what is last written to it, or else as before. -/
theorem get?_insertAll (m : Keyed κ α) (es : List (κ × α)) (key : κ) :
    (m.insertAll es).get? key = ((ofList es).get? key).or (m.get? key) := by
  induction es generalizing m with
  | nil => rfl
  | cons e es ih =>
    have front (m : Keyed κ α) : (m.insertAll (e :: es)).get? key =
        ((ofList es).get? key).or ((m.insert e.1 e.2).get? key) := ih (m.insert e.1 e.2)
    rw [ofList, front, front, get?_insert, get?_insert, Option.or_assoc]
    split <;> rfl

/-! ## Entries that are kept -/

theorem mem_of_get? {m : Keyed κ α} {key : κ} {value : α} (h : m.get? key = some value) :
    (key, value) ∈ m.entries := by
  obtain ⟨before, after, split, -⟩ := List.lookup_eq_some_iff.mp h
  simp [split]

theorem mem_insertEntry {key : κ} {value : α} {es : List (κ × α)} {e : κ × α}
    (h : e ∈ insertEntry key value es) : e = (key, value) ∨ e ∈ es := by
  induction es with
  | nil => exact .inl (List.mem_singleton.mp h)
  | cons f es ih =>
    obtain ⟨k, v⟩ := f
    simp only [insertEntry] at h
    split at h
    next same =>
      obtain rfl := eq_of_beq same
      rcases List.mem_cons.mp h with rfl | h
      · exact .inl rfl
      · exact .inr (List.mem_cons_of_mem _ h)
    next =>
      rcases List.mem_cons.mp h with rfl | h
      · exact .inr List.mem_cons_self
      · exact (ih h).imp_right (List.mem_cons_of_mem _)

theorem mem_of_mem_ofList {es : List (κ × α)} {e : κ × α} (h : e ∈ (ofList es).entries) : e ∈ es := by
  have kept : ∀ (front : List (κ × α)) (m : Keyed κ α), e ∈ (m.insertAll front).entries →
      e ∈ m.entries ∨ e ∈ front := by
    intro front
    induction front with
    | nil => exact fun m member => .inl member
    | cons f front ih =>
      intro m member
      rcases ih (m.insert f.1 f.2) member with inside | inside
      · rcases mem_insertEntry inside with rfl | inside
        · exact .inr List.mem_cons_self
        · exact .inl inside
      · exact .inr (List.mem_cons_of_mem _ inside)
  exact (kept es empty h).resolve_left (by simp [empty])

/-- Two collections with the same keys are the same if the values of the one are found in the
other. -/
theorem eq_of_keys {m m' : Keyed κ α} (nodup : m'.keys.Nodup) (keys : m.keys = m'.keys)
    (found : ∀ e ∈ m.entries, m'.get? e.1 = some e.2) : m = m' := by
  have len : m.entries.length = m'.entries.length := by
    simpa [Keyed.keys] using congrArg List.length keys
  have entries : m.entries = m'.entries := by
    refine List.ext_getElem len fun i lt lt' => ?_
    have key : m.entries[i].1 = m'.entries[i].1 := by
      simpa [Keyed.keys, lt, lt'] using congrArg (·[i]?) keys
    have here : m'.get? m'.entries[i].1 = some m.entries[i].2 := key ▸ found _ (List.getElem_mem lt)
    have there := (get?_eq_some_iff nodup).mpr (List.getElem_mem (l := m'.entries) lt')
    exact Prod.ext key (Option.some.inj (here.symm.trans there))
  exact congrArg mk entries

end DetectionPlan.Keyed
