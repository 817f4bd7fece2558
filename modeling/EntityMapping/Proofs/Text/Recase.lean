import EntityMapping.Proofs.Text.Ascii
import Mathlib

/-! # What a change of case leaves

A change of case leaves no character without an image. Beyond ASCII the smallest of all small forms
is the k of the Kelvin sign, so a text whose small form has letters before k alone is within ASCII.
-/
namespace EntityMapping.Text

variable {c : Char} {cs : List Char} {cased : Bool}

theorem toLower_comp_toLower : Char.toLower ∘ Char.toLower = Char.toLower :=
  funext Char.toLower_toLower_eq_toLower

theorem upperExpansions_ne_nil : ∀ e ∈ upperExpansions, e.2 ≠ [] := by decide

theorem upperChar_ne_nil (c : Char) : upperChar c ≠ [] := by
  unfold upperChar
  split
  · exact List.cons_ne_nil _ _
  · split
    · rename_i codes hcodes
      obtain ⟨before, after, hsplit, _⟩ := List.lookup_eq_some_iff.1 hcodes
      have hmem : (c.toNat, codes) ∈ upperExpansions := by simp [hsplit]
      exact fun hnil => upperExpansions_ne_nil _ hmem (List.map_eq_nil_iff.1 hnil)
    · exact List.cons_ne_nil _ _

theorem lowerChar_ne_nil (c : Char) : lowerChar c ≠ [] := by
  unfold lowerChar
  split
  · exact List.cons_ne_nil _ _
  · split <;> exact List.cons_ne_nil _ _

theorem lowerChars_singleton_ne_nil (c : Char) : lowerChars [c] ≠ [] := by
  rw [lowerChars, lowerFrom]
  refine List.append_ne_nil_of_left_ne_nil ?_ _
  split
  · exact List.cons_ne_nil _ _
  · exact lowerChar_ne_nil c

def IsBeforeK (c : Char) : Prop := 0 < c.toNat ∧ c.toNat < 107

theorem lowerShifts_image : ∀ s ∈ lowerShifts, 107 ≤ s.image := by decide +kernel

theorem not_isBeforeK_ofNat {n : Nat} (hn : 107 ≤ n) : ¬ IsBeforeK (Char.ofNat n) := by
  rintro ⟨hpos, hlt⟩
  -- what is no code point becomes zero, so zero has to be left out
  rw [Char.toNat_ofNat] at hpos hlt
  split at hlt
  · omega
  · simp_all

theorem lt_of_lowerChar (h : ∀ x ∈ lowerChar c, IsBeforeK x) : c.toNat < 128 := by
  by_contra hc
  unfold lowerChar at h
  rw [if_neg hc] at h
  split at h
  · exact not_isBeforeK_ofNat (n := 775) (by omega) (h _ (by simp))
  · have himage := h _ List.mem_cons_self
    unfold Shift.apply at himage
    split at himage
    · rename_i s hs
      have hfrom := lowerShifts_image s (List.mem_of_find?_eq_some hs)
      exact not_isBeforeK_ofNat (by omega) himage
    · exact hc (himage.2.trans (by omega))

theorem isAscii_of_lowerFrom (h : ∀ x ∈ lowerFrom cased cs, IsBeforeK x) : IsAscii cs := by
  induction cs generalizing cased with
  | nil => exact nofun
  | cons c cs ih =>
    rw [lowerFrom] at h
    obtain ⟨himage, hrest⟩ := List.forall_mem_append.1 h
    refine IsAscii.cons_iff.2 ⟨?_, ih hrest⟩
    split at himage
    · split at himage
      · exact absurd (himage _ List.mem_cons_self) (not_isBeforeK_ofNat (by omega))
      · exact absurd (himage _ List.mem_cons_self) (not_isBeforeK_ofNat (by omega))
    · exact lt_of_lowerChar himage

end EntityMapping.Text
