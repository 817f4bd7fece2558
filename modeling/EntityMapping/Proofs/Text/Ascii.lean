import EntityMapping.Text.Alphanumeric
import EntityMapping.Text.CharClass
import EntityMapping.Text.Recase

/-! # ASCII characters

Within ASCII the three kinds of letters and numbers exclude each other, and a change of case is one
character for one.
-/
namespace EntityMapping.Text

def IsAscii (cs : List Char) : Prop := ∀ c ∈ cs, c.toNat < 128

instance (cs : List Char) : Decidable (IsAscii cs) :=
  List.decidableBAll (fun c : Char => c.toNat < 128) cs

namespace IsAscii
variable {c : Char} {cs ds : List Char}

theorem cons_iff : IsAscii (c :: cs) ↔ c.toNat < 128 ∧ IsAscii cs := List.forall_mem_cons

theorem singleton (h : c.toNat < 128) : IsAscii [c] := cons_iff.2 ⟨h, nofun⟩

theorem of_subset (h : IsAscii cs) (hds : ds ⊆ cs) : IsAscii ds := fun c hc => h c (hds hc)

end IsAscii

section
variable {c : Char}

theorem forall_ascii {P : Char → Prop} (h : ∀ n < 128, P (Char.ofNat n)) (hc : c.toNat < 128) :
    P c := by
  have hn := h c.toNat hc
  rwa [Char.ofNat_toNat] at hn

theorem upperChar_ascii (hc : c.toNat < 128) : upperChar c = [c.toUpper] := if_pos hc

theorem lowerChar_ascii (hc : c.toNat < 128) : lowerChar c = [c.toLower] := if_pos hc

theorem toNat_toUpper_lt (hc : c.toNat < 128) : c.toUpper.toNat < 128 :=
  forall_ascii (P := fun c => c.toUpper.toNat < 128) (by decide) hc

theorem toNat_toLower_lt (hc : c.toNat < 128) : c.toLower.toNat < 128 :=
  forall_ascii (P := fun c => c.toLower.toNat < 128) (by decide) hc

theorem not_of_isDigit (hc : c.toNat < 128) (h : isDigit c) :
    isUpper c = false ∧ isLower c = false :=
  forall_ascii (P := fun c => isDigit c → isUpper c = false ∧ isLower c = false) (by decide) hc h

theorem not_of_isUpper (hc : c.toNat < 128) (h : isUpper c) :
    isDigit c = false ∧ isLower c = false :=
  forall_ascii (P := fun c => isUpper c → isDigit c = false ∧ isLower c = false) (by decide) hc h

theorem not_of_isLower (hc : c.toNat < 128) (h : isLower c) :
    isDigit c = false ∧ isUpper c = false :=
  forall_ascii (P := fun c => isLower c → isDigit c = false ∧ isUpper c = false) (by decide) hc h

theorem toUpper_eq_iff (hc : c.toNat < 128) : c.toUpper = c ↔ isLower c = false :=
  forall_ascii (P := fun c => c.toUpper = c ↔ isLower c = false) (by decide) hc

theorem toLower_eq_iff (hc : c.toNat < 128) : c.toLower = c ↔ isUpper c = false :=
  forall_ascii (P := fun c => c.toLower = c ↔ isUpper c = false) (by decide) hc

theorem isUpper_toUpper (hc : c.toNat < 128) (ha : isAlphanumeric c) (hd : isDigit c = false) :
    isUpper c.toUpper ∧ isLower c.toLower :=
  forall_ascii (P := fun c => isAlphanumeric c → isDigit c = false →
    isUpper c.toUpper ∧ isLower c.toLower) (by decide) hc ha hd

theorem isUpper_eq_false (hc : c.toNat < 128) (ha : isAlphanumeric c = false) :
    isUpper c = false :=
  forall_ascii (P := fun c => isAlphanumeric c = false → isUpper c = false) (by decide) hc ha

theorem isAlphanumeric_toUpper (hc : c.toNat < 128) :
    isAlphanumeric c.toUpper = isAlphanumeric c ∧ isAlphanumeric c.toLower = isAlphanumeric c :=
  forall_ascii (P := fun c => isAlphanumeric c.toUpper = isAlphanumeric c ∧
    isAlphanumeric c.toLower = isAlphanumeric c) (by decide) hc

end

variable {cs : List Char}

theorem upperChars_ascii (h : IsAscii cs) : upperChars cs = cs.map Char.toUpper := by
  induction cs with
  | nil => rfl
  | cons c cs ih =>
    obtain ⟨hc, hcs⟩ := IsAscii.cons_iff.1 h
    have hrest : cs.flatMap upperChar = cs.map Char.toUpper := ih hcs
    rw [upperChars, List.flatMap_cons, upperChar_ascii hc, hrest]
    rfl

/-- The sigmas, of which the small form depends on the place, lie beyond ASCII. -/
theorem lowerFrom_ascii (h : IsAscii cs) (cased : Bool) :
    lowerFrom cased cs = cs.map Char.toLower := by
  induction cs generalizing cased with
  | nil => rfl
  | cons c cs ih =>
    obtain ⟨hc, hcs⟩ := IsAscii.cons_iff.1 h
    have hsigma : c ≠ capitalSigma := by
      rintro rfl
      exact absurd hc (by decide)
    rw [lowerFrom, ih hcs, if_neg hsigma, lowerChar_ascii hc]
    rfl

theorem lowerChars_ascii (h : IsAscii cs) : lowerChars cs = cs.map Char.toLower :=
  lowerFrom_ascii h false

end EntityMapping.Text
