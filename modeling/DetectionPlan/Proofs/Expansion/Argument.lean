/-
What a placeholder function gets for an argument. The quotes are cut off a text that starts and ends
with one, and pairs between them are written once. One literal becomes its content by that, but so
does the text of every other expression that starts with a literal and ends with one lose the quotes
at its ends (`unquoteLiteral_eq_self_iff`).
-/
import DetectionPlan.Expansion.Request

namespace DetectionPlan

open Sql (Expr RenderSettings)

/-! ## Texts between quotes -/

/-- A content as a literal: between quotes, and with every quote in it written twice. -/
def literalOf (q : Char) (content : List Char) : List Char := q :: (doubleChar q content ++ [q])

/-- Whether a text starts with a quote and ends with another one. -/
def IsEnclosed (q : Char) (cs : List Char) : Prop := ∃ inner, cs = q :: (inner ++ [q])

variable {q : Char} {inner : List Char}

/-- A text between quotes is a literal if the quotes in it come in pairs. -/
theorem exists_literalOf_iff :
    (∃ content, q :: (inner ++ [q]) = literalOf q content) ↔ doubleChar q (halveChar q inner) = inner := by
  constructor
  · rintro ⟨content, same⟩
    obtain rfl : inner = doubleChar q content := by simpa [literalOf] using same
    rw [halveChar_doubleChar]
  · intro paired
    exact ⟨halveChar q inner, by rw [literalOf, paired]⟩

theorem length_halveChar_le (q : Char) : ∀ cs : List Char, (halveChar q cs).length ≤ cs.length
  | [] => Nat.le_refl 0
  | [_] => Nat.le_refl 1
  | c :: d :: rest => by
    have shorter := length_halveChar_le q rest
    have shorter' := length_halveChar_le q (d :: rest)
    rw [halveChar]
    split <;> simp only [List.length_cons] at * <;> omega

namespace Sql.RenderSettings

variable {r : RenderSettings} {text : String}

theorem unquoteLiteral_enclosed (h : text.toList = r.literalQuote :: (inner ++ [r.literalQuote])) :
    r.unquoteLiteral text = String.ofList (halveChar r.literalQuote inner) := by
  obtain ⟨second, rest, split⟩ : ∃ second rest, inner ++ [r.literalQuote] = second :: rest := by
    cases inner <;> exact ⟨_, _, rfl⟩
  unfold unquoteLiteral
  rw [h, split]
  simp only [← split, List.getLast?_append, List.getLast?_singleton, Option.some_or, BEq.rfl, Bool.and_self,
    if_true, List.dropLast_concat]

/-- One literal becomes its content. -/
theorem unquoteLiteral_literalOf (r : RenderSettings) (content : String) :
    r.unquoteLiteral (String.ofList (literalOf r.literalQuote content.toList)) = content := by
  have enclosed : r.unquoteLiteral (String.ofList (literalOf r.literalQuote content.toList)) =
      String.ofList (halveChar r.literalQuote (doubleChar r.literalQuote content.toList)) :=
    unquoteLiteral_enclosed String.toList_ofList
  rw [enclosed, halveChar_doubleChar, String.ofList_toList]

/-- A text that does not start and end with a quote is left as it is. -/
theorem unquoteLiteral_eq_self (h : ¬ IsEnclosed r.literalQuote text.toList) : r.unquoteLiteral text = text := by
  unfold unquoteLiteral
  split
  next first second rest shape =>
    dsimp only
    split
    next ends =>
      obtain ⟨starts, last⟩ := Bool.and_eq_true_iff.mp ends
      obtain ⟨inner, whole⟩ := List.getLast?_eq_some_iff.mp (eq_of_beq last)
      exact absurd ⟨inner, by rw [shape, eq_of_beq starts, whole]⟩ h
    · rfl
  · rfl

/-- Quotes that are cut off make a text shorter. -/
theorem unquoteLiteral_ne_self (h : IsEnclosed r.literalQuote text.toList) : r.unquoteLiteral text ≠ text := by
  obtain ⟨inner, enclosed⟩ := h
  intro same
  have shorter := length_halveChar_le r.literalQuote inner
  rw [← String.toList_inj, unquoteLiteral_enclosed enclosed, String.toList_ofList, enclosed] at same
  rw [same] at shorter
  simp only [List.length_cons, List.length_append] at shorter
  omega

end Sql.RenderSettings

/-! ## Arguments -/

namespace Sql.Expr

/-- Expressions that are made of others. -/
def isCompound : Expr → Bool
  | .name _ | .star _ | .literal _ => false
  | _ => true

end Sql.Expr

namespace Expansion

theorem argumentText_compound {e : Expr} (h : e.isCompound) (r : RenderSettings) :
    argumentText r (.positional e) = r.unquoteLiteral e.text := by
  cases e <;> first | rfl | cases h

/-- **What is cut out of its quotes.** One literal comes back as its content. Texts are returned
unchanged exactly if they do not both start and end with a quote, and so are compound arguments handed
over as their text. -/
theorem unquoteLiteral_eq_self_iff (r : RenderSettings) :
    (∀ content : String,
      r.unquoteLiteral (String.ofList (literalOf r.literalQuote content.toList)) = content) ∧
    (∀ text, r.unquoteLiteral text = text ↔ ¬ IsEnclosed r.literalQuote text.toList) ∧
    ∀ e : Expr, e.isCompound →
      (argumentText r (.positional e) = e.text ↔ ¬ IsEnclosed r.literalQuote e.text.toList) := by
  have unchanged (text : String) : r.unquoteLiteral text = text ↔ ¬ IsEnclosed r.literalQuote text.toList :=
    ⟨fun same enclosed => RenderSettings.unquoteLiteral_ne_self enclosed same,
      RenderSettings.unquoteLiteral_eq_self⟩
  refine ⟨RenderSettings.unquoteLiteral_literalOf r, unchanged, fun e compound => ?_⟩
  rw [argumentText_compound compound]
  exact unchanged e.text

/-- Two literals put together. -/
def concatenation : Expr :=
  .binary (.literal (.string .single "a")) .concat (.literal (.string .single "b"))

/-- The text of two literals put together is not one literal, and still it loses its quotes. -/
theorem unquoteLiteral_eq_self_iff_concatenation :
    (concatenation.isCompound ∧ concatenation.text = "'a' || 'b'" ∧
      (¬ ∃ content, "'a' || 'b'".toList = literalOf '\x27' content) ∧ IsEnclosed '\x27' "'a' || 'b'".toList) ∧
    RenderSettings.unquoteLiteral {} "'a' || 'b'" ≠ "'a' || 'b'" ∧
    argumentText {} (.positional concatenation) ≠ "'a' || 'b'" ∧
    argumentText {} (.positional concatenation) = "a' || 'b" := by
  have text : concatenation.text = "'a' || 'b'" := by decide +kernel
  have enclosed : "'a' || 'b'".toList = '\x27' :: ("a' || 'b".toList ++ ['\x27']) := by decide +kernel
  have several : ¬ ∃ content, "'a' || 'b'".toList = literalOf '\x27' content := by
    rw [enclosed, exists_literalOf_iff]
    decide +kernel
  obtain ⟨-, unchanged, handed⟩ := unquoteLiteral_eq_self_iff {}
  refine ⟨⟨rfl, text, several, _, enclosed⟩, fun same => ?_, fun same => ?_, by decide +kernel⟩
  · exact (unchanged _).mp same ⟨_, enclosed⟩
  · refine (handed concatenation rfl).mp (same.trans text.symm) ?_
    rw [text]
    exact ⟨_, enclosed⟩

end Expansion

end DetectionPlan
