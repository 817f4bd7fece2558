import Mathlib
import EntityMapping.Proofs.Text.Ascii
import EntityMapping.Text.CharClass

/-! # Stripping blanks

What is stripped is exactly the blanks in front and behind. No letter of ASCII is blank.
-/
namespace EntityMapping.Text

variable {front word back : List Char}

theorem dropWhile_blank (hfront : ∀ c ∈ front, isBlank c)
    (hword : ∀ c ∈ word.head?, isBlank c = false) :
    (front ++ word).dropWhile isBlank = word := by
  rw [List.dropWhile_append_of_pos hfront]
  cases word with
  | nil => rfl
  | cons c word =>
    rw [List.dropWhile_cons, hword c rfl]
    rfl

theorem trimChars_padded (hfront : ∀ c ∈ front, isBlank c) (hback : ∀ c ∈ back, isBlank c)
    (hhead : ∀ c ∈ word.head?, isBlank c = false) (hlast : ∀ c ∈ word.getLast?, isBlank c = false)
    (hne : word ≠ []) : trimChars (front ++ word ++ back) = word := by
  have hhead' : ∀ c ∈ (word ++ back).head?, isBlank c = false := by
    obtain ⟨c, word, rfl⟩ := List.exists_cons_of_ne_nil hne
    exact hhead
  have hreversed : ∀ c ∈ back.reverse, isBlank c := fun c hc => hback c (List.mem_reverse.1 hc)
  rw [trimChars, List.append_assoc, dropWhile_blank hfront hhead', List.reverse_append,
    dropWhile_blank hreversed (by rwa [List.head?_reverse]), List.reverse_reverse]

theorem toNat_lt_of_isAlpha {c : Char} (h : c.isAlpha) : c.toNat < 128 := by
  simp only [Char.isAlpha, Char.isUpper, Char.isLower, Bool.or_eq_true, Bool.and_eq_true,
    decide_eq_true_eq, ge_iff_le, UInt32.le_iff_toNat_le, UInt32.reduceToNat, Char.reduceVal,
    Char.toNat_val] at h
  omega

theorem not_isBlank_of_isAlpha {c : Char} (h : c.isAlpha) : isBlank c = false ∧ c ≠ '(' :=
  forall_ascii (P := fun c => c.isAlpha → isBlank c = false ∧ c ≠ '(') (by decide)
    (toNat_lt_of_isAlpha h) h

theorem ne_paren_of_isBlank {c : Char} (h : isBlank c) : c ≠ '(' := by
  rintro rfl
  exact absurd h (by decide)

end EntityMapping.Text
