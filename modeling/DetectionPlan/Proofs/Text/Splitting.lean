/-
Texts cut apart. A text without a separator is not parted by it, cutting characters off both ends
of a text leaves what stands between them, and a text is cut in front of the first character of a
kind (`cut_at_first`).
-/
import DetectionPlan.Text.Blank
import Mathlib.Data.List.TakeWhile
import Mathlib.Data.String.Basic

namespace DetectionPlan

open String

/-- Behind some characters of a text there is no point to part it at. -/
theorem splitOnAux_dot {before after : List Char} (h : '.' ∉ after) :
    splitOnAux (ofList (before ++ after)) "." 0 ⟨utf8Len before⟩ 0 [] = [ofList (before ++ after)] := by
  induction after generalizing before with
  | nil =>
    have whole : Pos.Raw.extract (ofList before) 0 ⟨utf8Len before⟩ = ofList before := by
      simpa using extract_of_valid [] before []
    rw [splitOnAux, if_pos (by simp)]
    simp [whole]
  | cons c after ih =>
    have size := c.utf8Size_pos
    have goes : Pos.Raw.atEnd (ofList (before ++ c :: after)) ⟨utf8Len before⟩ = false := by
      rw [Bool.eq_false_iff, ne_eq, atEnd_iff]
      simp only [rawEndPos_ofList, utf8Len_append, utf8Len_cons, Pos.Raw.mk_le_mk]
      omega
    have other : (Pos.Raw.get (ofList (before ++ c :: after)) ⟨utf8Len before⟩ == Pos.Raw.get "." 0) = false := by
      have dot : Pos.Raw.get "." 0 = '.' := get_of_valid [] ['.']
      rw [get_of_valid, dot]
      simpa using fun e : c = '.' => h (by simp [e])
    have next : Pos.Raw.next (ofList (before ++ c :: after)) ((⟨utf8Len before⟩ : Pos.Raw).unoffsetBy 0) =
        ⟨utf8Len (before ++ [c])⟩ := by simpa using next_of_valid before c after
    rw [splitOnAux, goes, if_neg nofun, other, if_neg nofun, next]
    simpa using @ih (before ++ [c]) fun h' => h (by simp [h'])

theorem splitOn_dot {text : String} (h : '.' ∉ text.toList) : text.splitOn "." = [text] := by
  simpa [splitOn] using @splitOnAux_dot [] _ h

/-! ## Both ends of a text -/

variable {p : Char → Bool}

theorem exists_trimBy (p : Char → Bool) (cs : List Char) :
    ∃ before after, cs = before ++ trimBy p cs ++ after ∧ (∀ c ∈ before, p c) ∧ ∀ c ∈ after, p c := by
  have front : cs = cs.takeWhile p ++ cs.dropWhile p := List.takeWhile_append_dropWhile.symm
  have back : cs.dropWhile p = trimBy p cs ++ ((cs.dropWhile p).reverse.takeWhile p).reverse := by
    rw [trimBy, ← List.reverse_append, List.takeWhile_append_dropWhile, List.reverse_reverse]
  refine ⟨cs.takeWhile p, ((cs.dropWhile p).reverse.takeWhile p).reverse, ?_, ?_, ?_⟩
  · rw [List.append_assoc, ← back]
    exact front
  · exact fun c hc => List.mem_takeWhile_imp hc
  · exact fun c hc => List.mem_takeWhile_imp (List.mem_reverse.mp hc)

theorem dropWhile_append_head {before text : List Char} (front : ∀ c ∈ before, p c)
    (head : ∀ c ∈ text.head?, p c = false) : (before ++ text).dropWhile p = text := by
  rw [List.dropWhile_append_of_pos front]
  cases text with
  | nil => rfl
  | cons c text => exact List.dropWhile_cons_of_neg (by simp [head c rfl])

/-- A text whose first and last characters are of another kind is left as it is. -/
theorem trimBy_append {before text after : List Char} (front : ∀ c ∈ before, p c)
    (back : ∀ c ∈ after, p c) (some : text ≠ []) (first : ∀ c ∈ text.head?, p c = false)
    (last : ∀ c ∈ text.getLast?, p c = false) : trimBy p (before ++ text ++ after) = text := by
  have head : ∀ c ∈ (text ++ after).head?, p c = false := by
    rwa [List.head?_append_of_ne_nil _ some]
  rw [trimBy, List.append_assoc, dropWhile_append_head front head, List.reverse_append,
    dropWhile_append_head (fun c hc => back c (List.mem_reverse.mp hc)) (by rwa [List.head?_reverse]),
    List.reverse_reverse]

/-- A text has no character of a kind, or a first one. -/
theorem exists_first (p : Char → Bool) (cs : List Char) :
    (∀ c ∈ cs, p c = false) ∨
      ∃ before c after, cs = before ++ c :: after ∧ (∀ b ∈ before, p b = false) ∧ p c := by
  cases found : cs.find? p with
  | none =>
    rw [List.find?_eq_none] at found
    exact .inl fun c hc => Bool.eq_false_iff.mpr (found c hc)
  | some c =>
    obtain ⟨kind, before, after, split, others⟩ := List.find?_eq_some_iff_append.mp found
    exact .inr ⟨before, c, after, split, fun b hb => by simpa using others b hb, kind⟩

/-- A text without characters of a kind is not cut in front of one. -/
theorem cut_nowhere {cs : List Char} (others : ∀ c ∈ cs, p c = false) :
    cs.takeWhile (!p ·) = cs ∧ cs.dropWhile (!p ·) = [] := by
  have all : ∀ c ∈ cs, (!p c) = true := fun c hc => by rw [others c hc]; rfl
  exact ⟨List.takeWhile_eq_self_iff.mpr all, List.dropWhile_eq_nil_iff.mpr all⟩

/-- A text is cut in front of its first character of a kind. -/
theorem cut_at_first {before : List Char} {c : Char} (others : ∀ b ∈ before, p b = false) (kind : p c)
    (after : List Char) : (before ++ c :: after).takeWhile (!p ·) = before ∧
      (before ++ c :: after).dropWhile (!p ·) = c :: after := by
  have all : ∀ b ∈ before, (!p b) = true := fun b hb => by rw [others b hb]; rfl
  rw [List.takeWhile_append_of_pos all, List.dropWhile_append_of_pos all]
  simp [kind]

end DetectionPlan
