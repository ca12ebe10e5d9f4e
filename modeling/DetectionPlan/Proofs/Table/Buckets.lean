/-
The bucket starts that a table is completed to. A walk from one bucket to the next rises for
every period (`pairwise_bucketsFrom`). For periods as long as their buckets it misses none, so
that between two instants exactly the bucket starts are found (`mem_buckets_iff`).
-/
import DetectionPlan.Proofs.Period.Neighbour
import DetectionPlan.Table.TimeIndex

namespace DetectionPlan.TimeIndex

open Outcome (bind_ok_iff pure_ok_iff)

variable {p : Period} {first last low high : Int} {found : List Int}

/-- One step of the walk: it is over, or goes on from a later instant, or was the last. -/
theorem bucketsFrom_cases (h : bucketsFrom p first last = .ok found) :
    (last < first ∧ found = []) ∨
      ∃ next, first ≤ last ∧ p.addTo first = .ok next ∧
        ((first < next ∧ ∃ rest, bucketsFrom p next last = .ok rest ∧ found = first :: rest) ∨
          (next ≤ first ∧ found = [first])) := by
  rw [bucketsFrom] at h
  split at h
  next inside =>
    obtain ⟨next, step, h⟩ := bind_ok_iff.mp h
    refine .inr ⟨next, inside, step, ?_⟩
    split at h
    next later =>
      obtain ⟨rest, walked, h⟩ := bind_ok_iff.mp h
      exact .inl ⟨later, rest, walked, (pure_ok_iff.mp h).symm⟩
    next stuck => exact .inr ⟨Int.not_lt.mp stuck, (pure_ok_iff.mp h).symm⟩
  next outside => exact .inl ⟨Int.not_le.mp outside, (Except.ok.inj h).symm⟩

/-- The walk rises from where it starts. -/
theorem pairwise_bucketsFrom (h : bucketsFrom p first last = .ok found) :
    (∀ b ∈ found, first ≤ b) ∧ found.Pairwise (· < ·) := by
  induction found generalizing first with
  | nil => exact ⟨nofun, .nil⟩
  | cons b rest ih =>
    obtain ⟨-, h⟩ | ⟨next, -, -, ⟨later, rest', walked, h⟩ | ⟨-, h⟩⟩ := bucketsFrom_cases h
    · cases h
    · obtain ⟨rfl, rfl⟩ := List.cons.inj h
      obtain ⟨above, rising⟩ := ih walked
      refine ⟨?_, List.pairwise_cons.mpr ⟨fun c hc => later.trans_le (above c hc), rising⟩⟩
      rintro c (_ | ⟨_, hc⟩)
      · exact le_rfl
      · exact later.le.trans (above c hc)
    · obtain ⟨rfl, rfl⟩ := List.cons.inj h
      exact ⟨by simp, List.pairwise_singleton _ _⟩

/-- From a bucket start the walk comes by every other up to its end. -/
theorem mem_bucketsFrom_iff (nonzero : p.isZero = false) (tiles : p.Tiles)
    (starts : p.IsBucketStart first) (h : bucketsFrom p first last = .ok found) {b : Int} :
    b ∈ found ↔ p.IsBucketStart b ∧ first ≤ b ∧ b ≤ last := by
  have mono := Period.bucketStart_strictMono nonzero
  induction found generalizing first with
  | nil =>
    obtain ⟨outside, -⟩ | ⟨_, -, -, ⟨-, _, -, h⟩ | ⟨-, h⟩⟩ := bucketsFrom_cases h
    · simp only [List.not_mem_nil, false_iff]
      omega
    · cases h
    · cases h
  | cons c rest ih =>
    obtain ⟨-, h⟩ | ⟨next, inside, step, walk⟩ := bucketsFrom_cases h
    · cases h
    obtain ⟨number, rfl⟩ := starts.exists_number nonzero
    -- The walk goes on to the start with the next number, so it leaves out none.
    obtain ⟨rfl, dated⟩ := Period.addTo_bucketStart tiles step
    have later : p.bucketStart number < p.bucketStart (number + 1) := mono (Int.lt_succ number)
    obtain ⟨-, rest', walked, h⟩ | ⟨stuck, -⟩ := walk
    · obtain ⟨rfl, rfl⟩ := List.cons.inj h
      have others : b ∈ rest ↔ p.IsBucketStart b ∧ p.bucketStart (number + 1) ≤ b ∧ b ≤ last :=
        ih (Period.isBucketStart_of_hasDate nonzero dated) walked
      rw [List.mem_cons, others]
      constructor
      · rintro (rfl | ⟨hb, after, before⟩)
        · exact ⟨starts, le_rfl, inside⟩
        · exact ⟨hb, later.le.trans after, before⟩
      · rintro ⟨hb, after, before⟩
        obtain ⟨k, rfl⟩ := hb.exists_number nonzero
        rcases (mono.le_iff_le.mp after).eq_or_lt with rfl | beyond
        · exact .inl rfl
        · exact .inr ⟨hb, mono.monotone beyond, before⟩
    · exact absurd later (Int.not_lt.mpr stuck)

theorem pairwise_buckets (h : buckets p low high = .ok found) : found.Pairwise (· < ·) := by
  unfold buckets at h
  split at h
  · obtain ⟨first, -, h⟩ := bind_ok_iff.mp h
    obtain ⟨last, -, h⟩ := bind_ok_iff.mp h
    exact (pairwise_bucketsFrom h).2
  · obtain rfl := Except.ok.inj h
    exact .nil

/-- Between two instants exactly the bucket starts are found. -/
theorem mem_buckets_iff (nonzero : p.isZero = false) (tiles : p.Tiles)
    (h : buckets p low high = .ok found) {b : Int} :
    b ∈ found ↔ low ≤ b ∧ b < high ∧ p.IsBucketStart b := by
  unfold buckets at h
  split at h
  · obtain ⟨first, hf, h⟩ := bind_ok_iff.mp h
    obtain ⟨last, hl, h⟩ := bind_ok_iff.mp h
    obtain ⟨⟨firstStarts, firstInside⟩, least⟩ :=
      Period.isLeast_firstBucketAtOrAfter nonzero tiles hf
    obtain ⟨⟨-, lastInside⟩, greatest⟩ := Period.isGreatest_lastBucketBefore nonzero tiles hl
    rw [mem_bucketsFrom_iff nonzero tiles firstStarts h]
    constructor
    · rintro ⟨hb, after, before⟩
      exact ⟨firstInside.trans after, before.trans_lt lastInside, hb⟩
    · rintro ⟨after, before, hb⟩
      exact ⟨hb, least ⟨hb, after⟩, greatest ⟨hb, before⟩⟩
  next empty =>
    obtain rfl := Except.ok.inj h
    simp only [List.not_mem_nil, false_iff]
    omega

end DetectionPlan.TimeIndex
