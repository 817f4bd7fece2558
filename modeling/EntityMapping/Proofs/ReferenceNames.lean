import EntityMapping.Proofs.Convention.Total
import EntityMapping.Proofs.Naming.CamelCase
import EntityMapping.Proofs.PackagePrefix

/-! # How references are named

Under the standard convention a reference that is not named after an id column starts with the name
of the entity that it leads to, which is put into camel case once more, gets its ending, and a small
first letter at last. Whether the name is still written as that of the entity depends on that name
alone: a package, the constraint and the columns have no say in it.
-/
namespace EntityMapping
open Naming Text

variable {f : ForeignKey} {once : Bool}

namespace ForeignKey

/-- The reference is named after its only column, whose last word is id and not its only one. -/
def IsNamedById (f : ForeignKey) (once : Bool) : Prop :=
  once ∧ ∃ col n ws w, f.columns = [col] ∧ col.name = .text n ∧ words n = ws ++ [w] ∧ ws ≠ [] ∧
    lower w = "id"

/-- What a key is called: its only column, or else the constraint or all its columns. -/
def caption (f : ForeignKey) : String :=
  match f.columns with
  | [col] => col.name.shown
  | cols => if f.name.truthy then f.name.shown else "_".intercalate (cols.map (·.name.shown))

/-- What is appended for a key that is not the only one with its target. -/
def ending (f : ForeignKey) (once : Bool) : String :=
  if once then "" else "By" ++ upperCamel f.caption

/-- The reference is named after its entity with a small first letter, and the ending of the key is
appended to that. -/
def FollowsRule (c : Convention) (f : ForeignKey) (once : Bool) : Prop :=
  ∃ n, c.className f.target = .ok (.text n) ∧
    c.referenceName f once = .ok (.text (decapitalize (unqualify n) ++ f.ending once))

theorem mapM_text {cols : List Column} (h : ∀ col ∈ cols, col.IsTyped) :
    cols.mapM Column.text = .ok (cols.map (·.name.shown)) :=
  Answer.mapM_eq_map fun col hcol => Document.asText_of_isText (h col hcol).1 _

theorem suffix_eq (hf : f.IsTyped) : f.suffix = .ok (upperCamel f.caption) := by
  have hname : ∀ n : Name, n.IsText →
      (do (← upperCamelName n).asText .notName : Answer String) = .ok (upperCamel n.shown) := by
    rintro _ ⟨s, rfl⟩
    rfl
  cases hcols : f.columns with
  | nil => exact absurd hcols f.columns_ne
  | cons col cols =>
    cases cols with
    | nil =>
      simp only [suffix, caption, hcols]
      exact hname col.name (hf.2.2.1 col (by simp [hcols])).1
    | cons col' cols =>
      simp only [suffix, caption, hcols]
      split
      · rename_i ht
        exact hname f.name (hf.2.2.2.2.isText ht)
      · rename_i hno
        rw [label, if_neg hno, mapM_text hf.2.2.1, hcols]
        rfl

theorem suffixUnless_eq (hf : f.IsTyped) (once : Bool) :
    f.suffixUnless once = .ok (f.ending once) := by
  unfold suffixUnless ending
  split
  · rfl
  · rw [suffix_eq hf]
    rfl

end ForeignKey

theorem idStem?_eq_none {ws : List String}
    (h : ∀ vs w, ws = vs ++ [w] → vs ≠ [] → lower w ≠ "id") : idStem? ws = none := by
  unfold idStem?
  rw [if_neg]
  rintro ⟨hlength, hlast⟩
  obtain ⟨w, hw, hid⟩ := (Option.any_eq_true _ _).1 hlast
  obtain ⟨vs, rfl⟩ := List.getLast?_eq_some_iff.1 hw
  refine h vs w rfl ?_ (of_decide_eq_true hid)
  rintro rfl
  simp at hlength

theorem keyStem?_eq_none (hf : f.IsTyped) (h : ¬ f.IsNamedById once) :
    keyStem? f once = .ok none := by
  unfold keyStem?
  split
  · rename_i col hcol
    obtain ⟨n, hn⟩ := (hf.2.2.1 col (by simp [hcol])).1
    rw [hn, wordsOfName_text]
    have hstem : idStem? (words n) = none := idStem?_eq_none fun ws w hws hne hid =>
      h ⟨rfl, col, n, ws, w, hcol, hn, hws, hne, hid⟩
    exact congrArg Except.ok hstem
  · rfl

def endingStart (once : Bool) : String := if once then "" else "By"

/-- The name of an entity is written the same, with a small first letter, when it is put into camel
case again and an ending is appended first. -/
def KeepsSpelling (entity : String) (once : Bool) : Prop :=
  decapitalize (upperCamel entity ++ endingStart once) =
    decapitalize entity ++ endingStart once

instance (entity : String) (once : Bool) : Decidable (KeepsSpelling entity once) :=
  inferInstanceAs (Decidable (_ = _))

theorem decapitalize_ending_iff (f : ForeignKey) (once : Bool) (entity : String) :
    decapitalize (upperCamel entity ++ f.ending once) = decapitalize entity ++ f.ending once ↔
      KeepsSpelling entity once := by
  unfold ForeignKey.ending KeepsSpelling endingStart
  cases once with
  | true => rfl
  | false =>
    have hlong : ∀ n : String, 2 ≤ (n ++ "By").toList.length := by simp
    simp only [Bool.false_eq_true, if_false, ← String.append_assoc]
    rw [decapitalize_append (hlong _)]
    exact String.append_left_inj _

def simpleName (t : TableId) : String := unqualify (upperCamel t.name.shown)

theorem exists_className (package : String) {id : TableId} (hid : id.name.IsText) :
    ∃ n, Convention.standardClassName (.text package) id = .ok (.text n) ∧
      unqualify n = simpleName id := by
  obtain ⟨name, hname⟩ := hid
  have hshown : id.name.shown = name := by rw [hname]; rfl
  by_cases hp : package = ""
  · rw [hp]
    exact ⟨upperCamel name, Convention.standardClassName_empty hname, by rw [simpleName, hshown]⟩
  · refine ⟨package ++ "." ++ upperCamel name, Convention.standardClassName_text hp hname, ?_⟩
    rw [simpleName, hshown, unqualify_append]

theorem followsRule_iff (package : String) (hf : f.IsTyped) (hid : ¬ f.IsNamedById once) :
    f.FollowsRule (.standard (.text package)) once ↔ KeepsSpelling (simpleName f.target) once := by
  obtain ⟨n, hn, hword⟩ := exists_className package hf.2.1.1
  have hname : (Convention.standard (.text package)).referenceName f once =
      .ok (.text (decapitalize (upperCamel (unqualify n) ++ f.ending once))) := by
    simp only [Convention.standard, Convention.standardWith, standardReferenceName,
      keyStem?_eq_none hf hid, classReferenceName, hn, ForeignKey.suffixUnless_eq hf]
    rfl
  rw [← decapitalize_ending_iff f, ← hword]
  constructor
  · rintro ⟨m, hm, hrule⟩
    obtain rfl : n = m := by simpa using hn.symm.trans hm
    simpa using hname.symm.trans hrule
  · intro heq
    exact ⟨n, hn, by rw [hname, heq]⟩

theorem keepsSpelling_iff_chars (entity : String) (once : Bool) : KeepsSpelling entity once ↔
    decapitalizeChars (upperCamelChars entity.toList ++ (endingStart once).toList) =
      decapitalizeChars entity.toList ++ (endingStart once).toList := by
  rw [KeepsSpelling, ← String.toList_inj]
  simp [decapitalize, upperCamel]

theorem toList_unqualify (s : String) :
    (unqualify s).toList = (s.toList.reverse.takeWhile (· ≠ '.')).reverse := by
  rw [unqualify, String.toList_ofList]

theorem toList_unqualify_subset (s : String) : (unqualify s).toList ⊆ s.toList := by
  intro x hx
  rw [toList_unqualify, List.mem_reverse] at hx
  exact List.mem_reverse.1 ((List.takeWhile_sublist _).subset hx)

theorem unqualify_of_no_dot {s : String} (h : ∀ x ∈ s.toList, x ≠ '.') : unqualify s = s := by
  rw [← String.toList_inj, toList_unqualify, List.takeWhile_eq_self_iff.2, List.reverse_reverse]
  intro x hx
  simpa using h x (List.mem_reverse.1 hx)

/-- The name of an entity keeps its spelling as long as the table name has no two words of a single
letter in a row; in front of an ending it must not be empty or a single letter either. -/
theorem keepsSpelling_iff_of_ascii {t : TableId} (ht : IsAscii t.name.shown.toList) (once : Bool) :
    KeepsSpelling (simpleName t) once ↔ (wordsOf t.name.shown.toList).IsChain Apart ∧
      (once = false → simpleName t ≠ "" ∧ ¬ IsLetter t.name.shown.toList) := by
  rw [keepsSpelling_iff_chars, simpleName]
  generalize t.name.shown = name at ht
  by_cases hwords : wordsOf name.toList = []
  · have hcamel : upperCamel name = name := by
      rw [upperCamel, upperCamelChars_of_no_words hwords, String.ofList_toList]
    have hsub := toList_unqualify_subset name
    have hrest : wordsOf (unqualify name).toList = [] :=
      wordsOf_eq_nil_iff.2 fun x hx => wordsOf_eq_nil_iff.1 hwords x (hsub hx)
    rw [hcamel, decapitalize_iff_of_no_words (ht.of_subset hsub) hrest, IsLetter, hwords]
    cases once with
    | true => simp [endingStart, decapitalizeChars, lowerFirst, lowerChars, lowerFrom]
    | false =>
      have hchanged : decapitalizeChars (endingStart false).toList ≠
          (endingStart false).toList := by decide
      simp [hchanged]
  · obtain ⟨a, l, h⟩ := exists_recased ht hwords
    have hcamel : (upperCamel name).toList = a :: l := by
      rw [upperCamel, String.toList_ofList, h.eq_cons]
    have hdot : ∀ x ∈ (upperCamel name).toList, x ≠ '.' := by
      rw [hcamel]
      rintro x hx rfl
      exact absurd (h.chars _ hx).2 (by decide)
    have hne : upperCamel name ≠ "" := by
      rintro hempty
      rw [hempty] at hcamel
      cases hcamel
    rw [unqualify_of_no_dot hdot, hcamel, h.decapitalize_iff]
    · cases once <;> simp [endingStart, hne]
    · cases once
      · exact .inr (by decide)
      · exact .inl rfl

/-- When a reference is not named after an id column, its name follows the rule if and only if the
name of the entity keeps its spelling. Within ASCII that is a matter of the words of the table
name. -/
theorem Convention.standard_followsRule (package : String) {f : ForeignKey} {once : Bool}
    (hf : f.IsTyped) (hid : ¬ f.IsNamedById once) :
    (f.FollowsRule (standard (.text package)) once ↔ KeepsSpelling (simpleName f.target) once) ∧
    (IsAscii f.target.name.shown.toList → (f.FollowsRule (standard (.text package)) once ↔
      (wordsOf f.target.name.shown.toList).IsChain Apart ∧
        (once = false → simpleName f.target ≠ "" ∧ ¬ IsLetter f.target.name.shown.toList))) := by
  have hrule := followsRule_iff package hf hid
  exact ⟨hrule, fun hascii => hrule.trans (keepsSpelling_iff_of_ascii hascii once)⟩

def ForeignKey.ofScore (target : String) : ForeignKey where
  table := { name := "scores" }
  target := { name := .text target }
  columns := [{ name := "home" }]
  columns_ne := by simp
  paired := .inl rfl

theorem ForeignKey.not_isNamedById_ofScore (target : String) (once : Bool) :
    ¬ (ofScore target).IsNamedById once := by
  rintro ⟨_, col, n, ws, w, hcol, hn, hwords, hne, _⟩
  obtain rfl : { name := "home" } = col := List.singleton_inj.1 hcol
  have hhome : words n = ["home"] := by
    cases hn
    decide +kernel
  rw [hhome, List.singleton_eq_append_iff] at hwords
  simp [hne] at hwords

theorem ForeignKey.isTyped_ofScore (target : String) : (ofScore target).IsTyped := by
  have htable : TableId.IsTyped { name := "scores" } := by decide
  have hcol : Column.IsTyped { name := "home" } := by decide
  exact ⟨htable, ⟨Document.isText_text target, .inl rfl, .inl rfl⟩, by simpa [ofScore] using hcol,
    by simp [ofScore], .inl rfl⟩

/-- References to the items of an order start with their name, in a package and with an ending, and
so the words of the table name are apart. -/
theorem Convention.standard_followsRule_items :
    (ForeignKey.ofScore "order_items").IsTyped ∧
    (∀ once, ¬ (ForeignKey.ofScore "order_items").IsNamedById once) ∧
    (∀ once, (ForeignKey.ofScore "order_items").FollowsRule (standard (.text "com.acme")) once) ∧
    (wordsOf "order_items".toList).IsChain Apart := by
  have htyped := ForeignKey.isTyped_ofScore "order_items"
  have hid := ForeignKey.not_isNamedById_ofScore "order_items"
  have hrule := fun once => standard_followsRule "com.acme" htyped (hid once)
  have hfollows : ∀ once, (ForeignKey.ofScore "order_items").FollowsRule
      (standard (.text "com.acme")) once := by
    intro once
    refine (hrule once).1.2 ?_
    revert once
    decide +kernel
  have hascii : IsAscii "order_items".toList := by decide
  exact ⟨htyped, hid, hfollows, (((hrule true).2 hascii).1 (hfollows true)).1⟩

/-- A reference to `a` that gets an ending starts with a capital, and one to `x_y` is not written as
the entity even without an ending. -/
theorem ForeignKey.not_followsRule_scores :
    (∀ target, (ofScore target).IsTyped ∧ ∀ once, ¬ (ofScore target).IsNamedById once) ∧
    ¬ (ofScore "a").FollowsRule (.standard (.text "")) false ∧
    ∀ once, ¬ (ofScore "x_y").FollowsRule (.standard (.text "")) once := by
  have hrule : ∀ target once, (ofScore target).FollowsRule (.standard (.text "")) once ↔
      KeepsSpelling (simpleName (ofScore target).target) once := fun target once =>
    followsRule_iff "" (isTyped_ofScore target) (not_isNamedById_ofScore target once)
  refine ⟨fun target => ⟨isTyped_ofScore target, not_isNamedById_ofScore target⟩, ?_, ?_⟩
  · rw [hrule]
    decide +kernel
  · intro once
    rw [hrule]
    revert once
    decide +kernel

end EntityMapping
