import EntityMapping.Convention.Standard
import EntityMapping.Proofs.Naming.CamelCase
import EntityMapping.Proofs.Naming.Segmentation
import EntityMapping.Proofs.Text.Recase
import Mathlib

/-! # The letters of a name in camel case

Within ASCII camel case changes the case of letters and drops what stands between words, and that is
all. So names fall together only when they have the same letters and digits.
-/
namespace EntityMapping
open Naming Text

namespace Naming
variable {c : Char} {cs w : List Char}

def smallLetters (name : String) : String :=
  String.ofList ((name.toList.filter Char.isAlphanum).map Char.toLower)

theorem map_toLower_capitalizeWord (h : IsAscii w) :
    (capitalizeWord w).map Char.toLower = w.map Char.toLower := by
  cases w with
  | nil => rfl
  | cons c w =>
    rw [capitalizeWord_ascii h, List.map_cons, List.map_cons, List.map_map, toLower_comp_toLower,
      Char.toLower_toUpper_eq_toLower]

theorem capitalizeWord_map_toLower (h : IsAscii w) :
    capitalizeWord (w.map Char.toLower) = capitalizeWord w := by
  cases w with
  | nil => rfl
  | cons c w =>
    have hsmall : IsAscii ((c :: w).map Char.toLower) :=
      List.forall_mem_map.2 fun x hx => toNat_toLower_lt (h x hx)
    rw [List.map_cons] at hsmall ⊢
    rw [capitalizeWord_ascii hsmall, capitalizeWord_ascii h, List.map_map, toLower_comp_toLower,
      Char.toUpper_toLower_eq_toUpper]

theorem filter_alphanumeric (h : IsAscii cs) :
    cs.filter isAlphanumeric = cs.filter Char.isAlphanum :=
  List.filter_congr fun c hc => if_pos (h c hc)

theorem map_toLower_upperCamelChars (h : IsAscii cs) (hne : wordsOf cs ≠ []) :
    (upperCamelChars cs).map Char.toLower = (cs.filter Char.isAlphanum).map Char.toLower := by
  have hwords : (wordsOf cs).map (List.map Char.toLower ∘ capitalizeWord) =
      (wordsOf cs).map (List.map Char.toLower) :=
    List.map_congr_left fun w hw => map_toLower_capitalizeWord (isAscii_of_mem_wordsOf h hw)
  calc (upperCamelChars cs).map Char.toLower
      = ((wordsOf cs).map (List.map Char.toLower ∘ capitalizeWord)).flatten := by
        rw [upperCamelChars_of_words hne, List.map_flatMap, List.flatMap_def]
        rfl
    _ = (wordsOf cs).flatten.map Char.toLower := by rw [hwords, List.map_flatten]
    _ = (cs.filter Char.isAlphanum).map Char.toLower := by
        rw [flatten_wordsOf, filter_alphanumeric h]

theorem lowerFirst_cons (hc : c.toNat < 128) : lowerFirst (c :: cs) = c.toLower :: cs := by
  rw [lowerFirst, List.take_succ_cons, List.take_zero, lowerChars_ascii (.singleton hc)]
  rfl

theorem lowerFirst_ascii (h : IsAscii cs) :
    IsAscii (lowerFirst cs) ∧ (lowerFirst cs).map Char.toLower = cs.map Char.toLower := by
  cases cs with
  | nil => exact ⟨h, rfl⟩
  | cons c cs =>
    obtain ⟨hc, hcs⟩ := IsAscii.cons_iff.1 h
    rw [lowerFirst_cons hc, List.map_cons, List.map_cons, Char.toLower_toLower_eq_toLower]
    exact ⟨IsAscii.cons_iff.2 ⟨toNat_toLower_lt hc, hcs⟩, rfl⟩

structure IsLettered (name : String) : Prop where
  ascii : IsAscii name.toList
  exists_letter : ∃ c ∈ name.toList, c.isAlphanum

namespace IsLettered
variable {name : String}

theorem wordsOf_ne_nil (h : IsLettered name) : wordsOf name.toList ≠ [] := by
  obtain ⟨c, hc, hletter⟩ := h.exists_letter
  intro hnil
  have hnone := wordsOf_eq_nil_iff.1 hnil c hc
  rw [isAlphanumeric, if_pos (h.ascii c hc), hletter] at hnone
  cases hnone

theorem ascii_upperCamelChars (h : IsLettered name) : IsAscii (upperCamelChars name.toList) :=
  fun x hx => (mem_upperCamelChars h.ascii h.wordsOf_ne_nil x hx).1

theorem lower_upperCamel (h : IsLettered name) : lower (upperCamel name) = smallLetters name := by
  rw [lower, upperCamel, String.toList_ofList, lowerChars_ascii h.ascii_upperCamelChars,
    map_toLower_upperCamelChars h.ascii h.wordsOf_ne_nil, smallLetters]

theorem lower_lowerCamel (h : IsLettered name) : lower (lowerCamel name) = smallLetters name := by
  obtain ⟨hascii, hsame⟩ := lowerFirst_ascii h.ascii_upperCamelChars
  rw [lower, lowerCamel, String.toList_ofList, lowerChars_ascii hascii, hsame,
    map_toLower_upperCamelChars h.ascii h.wordsOf_ne_nil, smallLetters]

end IsLettered
end Naming

/-- Camel case keeps the letters and digits of a name in their order, so two columns have properties
of the same name only if they have the same letters and digits. -/
theorem Naming.IsLettered.keepsLetters {name : String} (h : IsLettered name) :
    lower (upperCamel name) = smallLetters name ∧ lower (lowerCamel name) = smallLetters name ∧
    ∀ (package : Name) (t t' : TableId) (other : String), IsLettered other →
      (Convention.standard package).propertyName t (.text name) =
        (Convention.standard package).propertyName t' (.text other) →
      smallLetters name = smallLetters other := by
  refine ⟨h.lower_upperCamel, h.lower_lowerCamel, ?_⟩
  intro package t t' other hother hsame
  have hcamel : lowerCamel name = lowerCamel other := by
    simpa [Convention.standard, Convention.standardWith] using hsame
  rw [← h.lower_lowerCamel, ← hother.lower_lowerCamel, hcamel]

/-- Two spellings of one column have the same property, and the same letters. -/
theorem Naming.IsLettered.keepsLetters_order :
    IsLettered "HTTP-ORDER_2" ∧ IsLettered "http order2" ∧
    lower (upperCamel "HTTP-ORDER_2") = "httporder2" ∧
    (Convention.standard .null).propertyName { name := "a" } (.text "HTTP-ORDER_2") =
      (Convention.standard .null).propertyName { name := "b" } (.text "http order2") ∧
    smallLetters "HTTP-ORDER_2" = smallLetters "http order2" := by
  have hloud : IsLettered "HTTP-ORDER_2" := ⟨by decide, .intro 'H' (by decide)⟩
  have hsoft : IsLettered "http order2" := ⟨by decide, .intro 'h' (by decide)⟩
  have hsame : (Convention.standard .null).propertyName { name := "a" } (.text "HTTP-ORDER_2") =
      (Convention.standard .null).propertyName { name := "b" } (.text "http order2") := by
    decide +kernel
  obtain ⟨hupper, _, hletters⟩ := hloud.keepsLetters
  exact ⟨hloud, hsoft, hupper.trans (by decide), hsame,
    hletters .null { name := "a" } { name := "b" } "http order2" hsoft hsame⟩

end EntityMapping
