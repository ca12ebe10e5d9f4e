/-
Values by key, in the order in which the keys were first written. Writing a key
again replaces its value and leaves it in its place, so `get?_insert` says all
there is to say about reading.
-/

namespace DetectionPlan

/-- Values by key, in order. -/
structure Keyed (κ α : Type) where
  entries : List (κ × α) := []
deriving DecidableEq, Repr, Inhabited

namespace Keyed

variable {κ α : Type}

def empty : Keyed κ α := {}

/-- The keys in order. -/
def keys (m : Keyed κ α) : List κ := m.entries.map (·.1)

/-- The values in the order of their keys. -/
def values (m : Keyed κ α) : List α := m.entries.map (·.2)

/-- The number of keys. -/
def size (m : Keyed κ α) : Nat := m.entries.length

def isEmpty (m : Keyed κ α) : Bool := m.entries.isEmpty

variable [BEq κ]

/-- The value of a key. -/
def get? (m : Keyed κ α) (key : κ) : Option α := m.entries.lookup key

def contains (m : Keyed κ α) (key : κ) : Bool := (m.get? key).isSome

/-- Replace the value of a key, or append the key. -/
def insertEntry (key : κ) (value : α) : List (κ × α) → List (κ × α)
  | [] => [(key, value)]
  | (k, v) :: rest => if k == key then (k, value) :: rest else (k, v) :: insertEntry key value rest

/-- Write the value of a key. -/
def insert (m : Keyed κ α) (key : κ) (value : α) : Keyed κ α := ⟨insertEntry key value m.entries⟩

/-- Write several keys one after the other. -/
def insertAll (m : Keyed κ α) (entries : List (κ × α)) : Keyed κ α :=
  entries.foldl (fun m e => m.insert e.1 e.2) m

def ofList (entries : List (κ × α)) : Keyed κ α := empty.insertAll entries

variable [LawfulBEq κ]

theorem lookup_insertEntry (key : κ) (value : α) (other : κ) (es : List (κ × α)) :
    (insertEntry key value es).lookup other =
      if other == key then some value else es.lookup other := by
  induction es with
  | nil => cases h : other == key <;> simp [insertEntry, List.lookup_cons, h]
  | cons e rest ih =>
    obtain ⟨k, v⟩ := e
    by_cases h : k = key
    · subst h
      by_cases o : other = k
      · simp [insertEntry, o]
      · have : (other == k) = false := by simpa using o
        simp [insertEntry, List.lookup_cons, this]
    · by_cases o : other = k
      · subst o
        simp [insertEntry, h]
      · have : (other == k) = false := by simpa using o
        simp [insertEntry, List.lookup_cons, h, this, ih]

/-- A key reads as what was last written to it, and all others as before. -/
theorem get?_insert (m : Keyed κ α) (key : κ) (value : α) (other : κ) :
    (m.insert key value).get? other = if other == key then some value else m.get? other :=
  lookup_insertEntry key value other m.entries

theorem map_fst_insertEntry (key : κ) (value : α) (es : List (κ × α)) :
    (insertEntry key value es).map (·.1) =
      if key ∈ es.map (·.1) then es.map (·.1) else es.map (·.1) ++ [key] := by
  induction es with
  | nil => simp [insertEntry]
  | cons e rest ih =>
    obtain ⟨k, v⟩ := e
    by_cases h : k = key
    · simp [insertEntry, h]
    · by_cases mem : key ∈ rest.map (·.1)
      · simp_all [insertEntry]
      · have : key ≠ k := fun e => h e.symm
        simp_all [insertEntry]

/-- A new key is written at the end, a known one stays in its place. -/
theorem keys_insert (m : Keyed κ α) (key : κ) (value : α) :
    (m.insert key value).keys = if key ∈ m.keys then m.keys else m.keys ++ [key] :=
  map_fst_insertEntry key value m.entries

end Keyed

end DetectionPlan
