import EntityMapping.Naming.CamelCase
import EntityMapping.Proofs.Naming.Words
import EntityMapping.Proofs.Text.Ascii
import Mathlib.Data.List.Chain

/-! # Camel case again

A name in camel case that is put into camel case once more is cut into words anew. Within ASCII the
words are found again one by one, except that a word of a single letter is drawn into another one
that stands in front of it.
-/
namespace EntityMapping.Naming
open Text

variable {a b c : Char} {cs l w : List Char} {ws : List (List Char)}

/-- The case of what follows a character when a name is put into camel case. -/
def recaseAfter : Char → List Char → List Char
  | _, [] => []
  | a, b :: cs => (if boundary a b cs.head? then b.toUpper else b.toLower) :: recaseAfter b cs

theorem capitalizeWord_ascii (h : IsAscii (c :: w)) :
    capitalizeWord (c :: w) = c.toUpper :: w.map Char.toLower := by
  obtain ⟨hc, hw⟩ := IsAscii.cons_iff.1 h
  simp only [capitalizeWord, List.take_succ_cons, List.take_zero, List.drop_succ_cons,
    List.drop_zero, upperChars_ascii (.singleton hc),
    lowerChars_ascii hw]
  rfl

/-- The words of a run are capitalised by a walk over its characters. -/
theorem flatMap_segments (h : IsAscii (c :: cs)) :
    (segments (c :: cs)).flatMap capitalizeWord = c.toUpper :: recaseAfter c cs := by
  induction cs generalizing c with
  | nil => exact (List.append_nil _).trans (capitalizeWord_ascii h)
  | cons b cs ih =>
    obtain ⟨hc, hcs⟩ := IsAscii.cons_iff.1 h
    have hrest := ih hcs
    rw [segments, recaseAfter]
    by_cases hbreak : breaksAfter c (b :: cs)
    · have hboundary : boundary c b cs.head? := hbreak
      rw [if_pos hbreak, if_pos hboundary, List.flatMap_cons, hrest,
        capitalizeWord_ascii (.singleton hc)]
      rfl
    · have hboundary : ¬ boundary c b cs.head? := hbreak
      obtain ⟨w, ws, hsegments⟩ := segments_cons b cs
      have hw : IsAscii (b :: w) :=
        hcs.of_subset (mem_segments (hsegments ▸ List.mem_cons_self)).2.1
      rw [hsegments, List.flatMap_cons, capitalizeWord_ascii hw, List.cons_append] at hrest
      rw [if_neg hbreak, if_neg hboundary, hsegments, attach, List.flatMap_cons,
        capitalizeWord_ascii (IsAscii.cons_iff.2 ⟨hc, hw⟩), List.map_cons, List.cons_append,
        List.cons_append, (List.cons.inj hrest).2]

/-- The character keeps its case behind another one, whatever follows it. -/
def KeepsCaseAfter (a b : Char) : Prop :=
  ∀ next, (if boundary a b next then b.toUpper else b.toLower) = b

theorem keepsCaseAfter_of_digit (hb : b.toNat < 128) (h : isDigit b) : KeepsCaseAfter a b := by
  intro next
  obtain ⟨hupper, hlower⟩ := not_of_isDigit hb h
  split
  · exact (toUpper_eq_iff hb).2 hlower
  · exact (toLower_eq_iff hb).2 hupper

theorem keepsCaseAfter_of_lower (hb : b.toNat < 128) (ha : isDigit a = false) (h : isLower b) :
    KeepsCaseAfter a b := by
  intro next
  obtain ⟨hdigit, hupper⟩ := not_of_isLower hb h
  rw [if_neg (by simp [boundary, ha, hdigit, hupper])]
  exact (toLower_eq_iff hb).2 hupper

theorem keepsCaseAfter_of_upper (hb : b.toNat < 128) (ha : isLower a ∨ isDigit a)
    (h : isUpper b) : KeepsCaseAfter a b := by
  intro next
  obtain ⟨hdigit, hlower⟩ := not_of_isUpper hb h
  rw [if_pos]
  · exact (toUpper_eq_iff hb).2 hlower
  · rcases ha with ha | ha <;> simp [boundary, ha, h, hdigit]

/-- A capital behind a capital starts a word only in front of a small letter. -/
theorem recased_upper_iff (hb : b.toNat < 128) (ha : isUpper a) (ha' : a.toNat < 128)
    (h : isUpper b) (next : Option Char) :
    (if boundary a b next then b.toUpper else b.toLower) = b ↔ next.any isLower := by
  obtain ⟨hdigit, hlower⟩ := not_of_isUpper hb h
  obtain ⟨hdigit', hlower'⟩ := not_of_isUpper ha' ha
  have hboundary : boundary a b next = next.any isLower := by
    simp [boundary, ha, h, hdigit, hdigit', hlower']
  rw [hboundary]
  split
  · rename_i hnext
    exact iff_of_true ((toUpper_eq_iff hb).2 hlower) hnext
  · rename_i hnext
    refine iff_of_false (fun heq => ?_) hnext
    rw [(toLower_eq_iff hb).1 heq] at h
    cases h

theorem isChain_small (hl : IsAscii l) (ha : isDigit a = false) (hlower : ∀ x ∈ l, isLower x) :
    (a :: l).IsChain KeepsCaseAfter := by
  induction l generalizing a with
  | nil => exact .singleton a
  | cons b l ih =>
    obtain ⟨hb, hl⟩ := IsAscii.cons_iff.1 hl
    obtain ⟨hb', hlower⟩ := List.forall_mem_cons.1 hlower
    exact .cons_cons (keepsCaseAfter_of_lower hb ha hb')
      (ih hl (not_of_isLower hb hb').1 hlower)

theorem isChain_digits (hl : IsAscii l) (hdigits : ∀ x ∈ l, isDigit x) :
    (a :: l).IsChain KeepsCaseAfter := by
  induction l generalizing a with
  | nil => exact .singleton a
  | cons b l ih =>
    obtain ⟨hb, hl⟩ := IsAscii.cons_iff.1 hl
    obtain ⟨hb', hdigits⟩ := List.forall_mem_cons.1 hdigits
    exact .cons_cons (keepsCaseAfter_of_digit hb hb') (ih hl hdigits)

/-- Along characters that keep their case nothing changes up to the last of them. -/
theorem recaseAfter_append_iff {r : List Char} (h : (a :: l).IsChain KeepsCaseAfter) :
    recaseAfter a (l ++ r) = l ++ r ↔
      recaseAfter ((a :: l).getLast (List.cons_ne_nil _ _)) r = r := by
  induction l generalizing a with
  | nil => rfl
  | cons b l ih =>
    obtain ⟨hb, hl⟩ := List.isChain_cons_cons.1 h
    rw [List.cons_append, recaseAfter, hb, List.cons.injEq, eq_self_iff_true, true_and, ih hl,
      List.getLast_cons_cons]

/-- A word as it is written in camel case: a capital with small letters, or a number. -/
inductive IsSpelled : List Char → Prop
  | letters {a : Char} {l : List Char} (ha : isUpper a) (hl : ∀ x ∈ l, isLower x) :
    IsSpelled (a :: l)
  | number {a : Char} {l : List Char} (ha : isDigit a) (hl : ∀ x ∈ l, isDigit x) :
    IsSpelled (a :: l)

def IsInitial (w : List Char) : Prop := ∃ a, w = [a] ∧ isDigit a = false

def Apart (v w : List Char) : Prop := ¬ (IsInitial v ∧ IsInitial w)

theorem isInitial_cons_iff : IsInitial (a :: l) ↔ l = [] ∧ isDigit a = false := by
  simp [IsInitial]

namespace IsSpelled

theorem ne_nil (h : IsSpelled w) : w ≠ [] := by
  cases h <;> exact List.cons_ne_nil _ _

theorem isChain (h : IsSpelled (a :: l)) (hascii : IsAscii (a :: l)) :
    (a :: l).IsChain KeepsCaseAfter := by
  obtain ⟨ha, hl⟩ := IsAscii.cons_iff.1 hascii
  cases h with
  | letters hupper hlower => exact isChain_small hl (not_of_isUpper ha hupper).1 hlower
  | number _ hdigits => exact isChain_digits hl hdigits

theorem isUpper_iff (h : IsSpelled (a :: l)) (ha : a.toNat < 128) :
    isUpper a ↔ isDigit a = false := by
  cases h with
  | letters hupper _ => exact iff_of_true hupper (not_of_isUpper ha hupper).1
  | number hdigit _ => simp [hdigit, (not_of_isDigit ha hdigit).1]

theorem head_not_lower (h : IsSpelled (a :: l)) (ha : a.toNat < 128) : isLower a = false := by
  cases h with
  | letters hupper _ => exact (not_of_isUpper ha hupper).2
  | number hdigit _ => exact (not_of_isDigit ha hdigit).2

end IsSpelled

/-- The next word keeps its capital unless it is a single letter behind another one. -/
theorem recased_head_iff {v : List Char} (hw : IsSpelled (a :: l)) (hv : IsSpelled (b :: v))
    (haw : IsAscii (a :: l)) (hav : IsAscii (b :: v)) {r : List Char}
    (hr : r.head?.any isLower = false) :
    (if boundary ((a :: l).getLast (List.cons_ne_nil _ _)) b (v ++ r).head? then b.toUpper
      else b.toLower) = b ↔ Apart (a :: l) (b :: v) := by
  obtain ⟨ha, hl⟩ := IsAscii.cons_iff.1 haw
  obtain ⟨hb, _⟩ := IsAscii.cons_iff.1 hav
  have hlast := List.getLast_mem (List.cons_ne_nil a l)
  rw [Apart, isInitial_cons_iff, isInitial_cons_iff]
  cases hv with
  | number hdigit _ =>
    exact iff_of_true (keepsCaseAfter_of_digit hb hdigit _) (by simp [hdigit])
  | letters hupper hsmall =>
    have hdigit := (not_of_isUpper hb hupper).1
    cases hw with
    | number hdigit' hdigits =>
      have hall : ∀ x ∈ a :: l, isDigit x := List.forall_mem_cons.2 ⟨hdigit', hdigits⟩
      have hz := hall _ hlast
      exact iff_of_true (keepsCaseAfter_of_upper hb (.inr hz) hupper _) (by simp [hdigit'])
    | letters hupper' hsmall' =>
      cases l with
      | nil =>
        rw [List.getLast_singleton, recased_upper_iff hb hupper' ha hupper]
        cases v with
        | nil => simp [hr, hdigit, (not_of_isUpper ha hupper').1]
        | cons x v => simp [hsmall x List.mem_cons_self]
      | cons x l =>
        have hz : isLower ((a :: x :: l).getLast (List.cons_ne_nil _ _)) := by
          rw [List.getLast_cons_cons]
          exact hsmall' _ (List.getLast_mem _)
        exact iff_of_true (keepsCaseAfter_of_upper hb (.inl hz) hupper _) (by simp)

theorem head?_flatten_not_lower (hws : ∀ w ∈ ws, IsSpelled w ∧ IsAscii w) :
    ws.flatten.head?.any isLower = false := by
  cases ws with
  | nil => rfl
  | cons w ws =>
    obtain ⟨hw, hascii⟩ := hws w List.mem_cons_self
    obtain ⟨a, l, rfl⟩ := List.exists_cons_of_ne_nil hw.ne_nil
    exact hw.head_not_lower (IsAscii.cons_iff.1 hascii).1

/-- Words in a row keep their case as long as no two single letters are neighbours. -/
theorem recaseAfter_words_iff (hw : IsSpelled (a :: l) ∧ IsAscii (a :: l))
    (hws : ∀ v ∈ ws, IsSpelled v ∧ IsAscii v) :
    recaseAfter a (l ++ ws.flatten) = l ++ ws.flatten ↔ ((a :: l) :: ws).IsChain Apart := by
  induction ws generalizing a l with
  | nil =>
    rw [recaseAfter_append_iff (hw.1.isChain hw.2)]
    simp [recaseAfter]
  | cons u ws ih =>
    obtain ⟨hv, hrest⟩ := List.forall_mem_cons.1 hws
    obtain ⟨b, v, rfl⟩ := List.exists_cons_of_ne_nil hv.1.ne_nil
    rw [recaseAfter_append_iff (hw.1.isChain hw.2), List.flatten_cons, List.cons_append,
      recaseAfter, List.cons.injEq,
      recased_head_iff hw.1 hv.1 hw.2 hv.2 (head?_flatten_not_lower hrest), ih hv hrest,
      List.isChain_cons_cons]

def IsLetter (cs : List Char) : Prop := ∃ w, wordsOf cs = [w] ∧ IsInitial w

theorem upperCamelChars_of_no_words (h : wordsOf cs = []) : upperCamelChars cs = cs := by
  rw [upperCamelChars, h]

theorem upperCamelChars_of_words (h : wordsOf cs ≠ []) :
    upperCamelChars cs = (wordsOf cs).flatMap capitalizeWord := by
  unfold upperCamelChars
  split
  · rename_i hnil
    exact absurd hnil h
  · rfl

theorem capitalizeWord_number (h : IsAscii w) (hw : ∀ x ∈ w, isDigit x) : capitalizeWord w = w := by
  cases w with
  | nil => rfl
  | cons a l =>
    obtain ⟨ha, hl⟩ := IsAscii.cons_iff.1 h
    obtain ⟨hdigit, hdigits⟩ := List.forall_mem_cons.1 hw
    rw [capitalizeWord_ascii h, (toUpper_eq_iff ha).2 (not_of_isDigit ha hdigit).2,
      List.map_congr_left (g := id), List.map_id]
    exact fun x hx => (toLower_eq_iff (hl x hx)).2 (not_of_isDigit (hl x hx) (hdigits x hx)).1

theorem capitalizeWord_letters (h : IsAscii w) (hne : w ≠ [])
    (hw : ∀ x ∈ w, isAlphanumeric x ∧ isDigit x = false) :
    ∃ a l, capitalizeWord w = a :: l ∧ isUpper a ∧ isDigit a = false ∧ (∀ x ∈ l, isLower x) ∧
      l.length + 1 = w.length := by
  obtain ⟨a, l, rfl⟩ := List.exists_cons_of_ne_nil hne
  obtain ⟨ha, hl⟩ := IsAscii.cons_iff.1 h
  obtain ⟨⟨halnum, hdigit⟩, hrest⟩ := List.forall_mem_cons.1 hw
  have hupper := (isUpper_toUpper ha halnum hdigit).1
  refine ⟨a.toUpper, l.map Char.toLower, capitalizeWord_ascii h, hupper,
    (not_of_isUpper (toNat_toUpper_lt ha) hupper).1, fun x hx => ?_, by simp⟩
  obtain ⟨y, hy, rfl⟩ := List.mem_map.1 hx
  exact (isUpper_toUpper (hl y hy) (hrest y hy).1 (hrest y hy).2).2

theorem isAscii_of_mem_wordsOf (hcs : IsAscii cs) (hw : w ∈ wordsOf cs) : IsAscii w :=
  hcs.of_subset fun x hx => ((mem_wordsOf hw).2.1 x hx).1

theorem mem_capitalizeWord (hcs : IsAscii cs) (hw : w ∈ wordsOf cs) :
    ∀ x ∈ capitalizeWord w, x.toNat < 128 ∧ isAlphanumeric x := by
  obtain ⟨hne, hmem, _⟩ := mem_wordsOf hw
  obtain ⟨a, l, rfl⟩ := List.exists_cons_of_ne_nil hne
  have hascii := isAscii_of_mem_wordsOf hcs hw
  obtain ⟨ha, hl⟩ := IsAscii.cons_iff.1 hascii
  rw [capitalizeWord_ascii hascii]
  refine List.forall_mem_cons.2 ⟨⟨toNat_toUpper_lt ha, ?_⟩, fun x hx => ?_⟩
  · rw [(isAlphanumeric_toUpper ha).1]
    exact (hmem a List.mem_cons_self).2
  · obtain ⟨y, hy, rfl⟩ := List.mem_map.1 hx
    refine ⟨toNat_toLower_lt (hl y hy), ?_⟩
    rw [(isAlphanumeric_toUpper (hl y hy)).2]
    exact (hmem y (List.mem_cons_of_mem _ hy)).2

theorem isSpelled_capitalizeWord (hcs : IsAscii cs) (hw : w ∈ wordsOf cs) :
    IsSpelled (capitalizeWord w) ∧ (IsInitial (capitalizeWord w) ↔ IsInitial w) := by
  obtain ⟨hne, hmem, hsame⟩ := mem_wordsOf hw
  have hascii := isAscii_of_mem_wordsOf hcs hw
  by_cases hnumber : ∀ x ∈ w, isDigit x
  · rw [capitalizeWord_number hascii hnumber]
    obtain ⟨a, l, rfl⟩ := List.exists_cons_of_ne_nil hne
    obtain ⟨hdigit, hdigits⟩ := List.forall_mem_cons.1 hnumber
    exact ⟨.number hdigit hdigits, Iff.rfl⟩
  · obtain ⟨y, hy, hnot⟩ : ∃ y ∈ w, isDigit y = false := by simpa using hnumber
    have hletters : ∀ x ∈ w, isAlphanumeric x ∧ isDigit x = false := fun x hx =>
      ⟨(hmem x hx).2, (hsame x hx y hy).trans hnot⟩
    obtain ⟨a, l, heq, hupper, hdigit, hlower, hlength⟩ :=
      capitalizeWord_letters hascii hne hletters
    rw [heq]
    refine ⟨.letters hupper hlower, ?_⟩
    obtain ⟨b, v, rfl⟩ := List.exists_cons_of_ne_nil hne
    have hempty : l = [] ↔ v = [] := by
      rw [← List.length_eq_zero_iff, ← List.length_eq_zero_iff, Nat.succ.inj hlength]
    rw [isInitial_cons_iff, isInitial_cons_iff, hempty, hdigit, (hletters b List.mem_cons_self).2]

theorem isChain_map_capitalizeWord (hcs : IsAscii cs) :
    ((wordsOf cs).map capitalizeWord).IsChain Apart ↔ (wordsOf cs).IsChain Apart := by
  rw [List.isChain_map]
  refine List.IsChain.iff_of_mem_imp fun v w hv hw => ?_
  rw [Apart, Apart, (isSpelled_capitalizeWord hcs hv).2, (isSpelled_capitalizeWord hcs hw).2]

theorem mem_upperCamelChars (hcs : IsAscii cs) (hne : wordsOf cs ≠ []) :
    ∀ x ∈ upperCamelChars cs, x.toNat < 128 ∧ isAlphanumeric x := by
  intro x hx
  rw [upperCamelChars_of_words hne] at hx
  obtain ⟨w, hw, hx⟩ := List.mem_flatMap.1 hx
  exact mem_capitalizeWord hcs hw x hx

/-- A name of letters and numbers is one run, which is put into camel case by a walk. -/
theorem upperCamelChars_recased (h : ∀ x ∈ a :: l, x.toNat < 128 ∧ isAlphanumeric x)
    (ha : isLower a = false) : upperCamelChars (a :: l) = a :: recaseAfter a l := by
  have hascii : IsAscii (a :: l) := fun x hx => (h x hx).1
  have hwords := wordsOf_of_alphanumeric fun x hx => (h x hx).2
  obtain ⟨w, ws, hsegments⟩ := segments_cons a l
  have hne : wordsOf (a :: l) ≠ [] := by simp [hwords, hsegments]
  rw [upperCamelChars_of_words hne, hwords, flatMap_segments hascii,
    (toUpper_eq_iff (h a List.mem_cons_self).1).2 ha]

/-- A name in camel case is put into camel case once more. The words are found again, and the name
stays the same, as long as no two single letters are neighbours. -/
structure Recased (cs : List Char) (a : Char) (l : List Char) : Prop where
  eq_cons : upperCamelChars cs = a :: l
  again : upperCamelChars (a :: l) = a :: recaseAfter a l
  chars : ∀ x ∈ a :: l, x.toNat < 128 ∧ isAlphanumeric x
  kept_iff : recaseAfter a l = l ↔ (wordsOf cs).IsChain Apart
  letter_iff : l = [] ∧ isUpper a ↔ IsLetter cs

theorem exists_recased (hcs : IsAscii cs) (hne : wordsOf cs ≠ []) : ∃ a l, Recased cs a l := by
  have hspelled : ∀ v ∈ (wordsOf cs).map capitalizeWord, IsSpelled v ∧ IsAscii v := by
    intro v hv
    obtain ⟨w, hw, rfl⟩ := List.mem_map.1 hv
    exact ⟨(isSpelled_capitalizeWord hcs hw).1, fun x hx => (mem_capitalizeWord hcs hw x hx).1⟩
  have hchain := isChain_map_capitalizeWord hcs
  have hchars := mem_upperCamelChars hcs hne
  have hcamel := upperCamelChars_of_words hne
  obtain ⟨w, ws, hws⟩ := List.exists_cons_of_ne_nil hne
  have hinitial := (isSpelled_capitalizeWord hcs (hws ▸ List.mem_cons_self : w ∈ wordsOf cs)).2
  rw [List.flatMap_def] at hcamel
  rw [hws, List.map_cons] at hspelled hchain hcamel
  obtain ⟨hw, hrest⟩ := List.forall_mem_cons.1 hspelled
  obtain ⟨a, l, hal⟩ := List.exists_cons_of_ne_nil hw.1.ne_nil
  rw [hal] at hw hchain hcamel hinitial
  rw [List.flatten_cons, List.cons_append] at hcamel
  rw [hcamel] at hchars
  have ha := (hchars a List.mem_cons_self).1
  refine ⟨a, _, hcamel, upperCamelChars_recased hchars (hw.1.head_not_lower ha), hchars, ?_, ?_⟩
  · rw [hws, ← hchain]
    exact recaseAfter_words_iff hw hrest
  · have hempty : (ws.map capitalizeWord).flatten = [] ↔ ws = [] := by
      cases ws with
      | nil => simp
      | cons v ws => simp [(hrest (capitalizeWord v) (by simp)).1.ne_nil]
    rw [List.append_eq_nil_iff, hempty, hw.1.isUpper_iff ha, and_right_comm, ← isInitial_cons_iff,
      hinitial, IsLetter, hws]
    simp [and_comm]

/-- What is appended to a name of two characters or more does not change how it starts. -/
theorem decapitalizeChars_append (h : 2 ≤ cs.length) (r : List Char) :
    decapitalizeChars (cs ++ r) = decapitalizeChars cs ++ r := by
  match cs, h with
  | a :: b :: cs, _ =>
    rw [List.cons_append, List.cons_append, decapitalizeChars, decapitalizeChars]
    split
    · rfl
    · simp [lowerFirst]

theorem decapitalize_append {n : String} (h : 2 ≤ n.toList.length) (s : String) :
    decapitalize (n ++ s) = decapitalize n ++ s := by
  rw [decapitalize, decapitalize, String.toList_append, decapitalizeChars_append h,
    String.ofList_append, String.ofList_toList]

theorem decapitalizeChars_singleton (ha : a.toNat < 128) : decapitalizeChars [a] = [a.toLower] := by
  rw [decapitalizeChars, lowerFirst, List.take_succ_cons, List.take_zero,
    lowerChars_ascii (.singleton ha)]
  · rfl
  · exact fun _ _ _ h => by cases h

theorem exists_decapitalizeChars (ha : a.toNat < 128) (l : List Char) :
    ∃ z, decapitalizeChars (a :: l) = z :: l ∧
      z = if isUpper a && l.head?.any isUpper then a else a.toLower := by
  cases l with
  | nil => exact ⟨_, decapitalizeChars_singleton ha, by simp⟩
  | cons b l =>
    refine ⟨_, ?_, rfl⟩
    rw [decapitalizeChars, List.head?_cons, Option.any_some]
    split
    · rfl
    · rw [lowerFirst, List.take_succ_cons, List.take_zero, lowerChars_ascii (.singleton ha)]
      rfl

/-- A name in camel case stays the same when it is put into camel case once more, gets an ending and
a small first letter, unless single letters are neighbours or the ending makes a single letter look
like an acronym. -/
theorem Recased.decapitalize_iff (h : Recased cs a l) {start : List Char}
    (hstart : start = [] ∨ start.head?.any isUpper) :
    decapitalizeChars (upperCamelChars (a :: l) ++ start) = decapitalizeChars (a :: l) ++ start ↔
      (wordsOf cs).IsChain Apart ∧ (start ≠ [] → ¬ IsLetter cs) := by
  have ha := (h.chars a List.mem_cons_self).1
  rw [← h.kept_iff, ← h.letter_iff, h.again]
  cases l with
  | nil =>
    rw [recaseAfter, decapitalizeChars_singleton ha]
    obtain ⟨z, hz, hcase⟩ := exists_decapitalizeChars ha start
    rw [List.singleton_append, List.singleton_append, hz, List.cons.injEq]
    rcases hstart with rfl | hupper
    · simp_all
    · have hne : start ≠ [] := by
        rintro rfl
        cases hupper
      rw [hupper, Bool.and_true] at hcase
      cases hfirst : isUpper a with
      | true =>
        rw [hfirst, if_pos rfl] at hcase
        have hchanged : a.toLower ≠ a := fun heq => by
          rw [(toLower_eq_iff ha).1 heq] at hfirst
          cases hfirst
        simp [hcase, hchanged.symm, hne]
      | false => simp [hcase, hfirst]
  | cons b l =>
    rw [decapitalizeChars_append (by simp [recaseAfter]), List.append_cancel_right_eq]
    obtain ⟨z, hz, hcase⟩ := exists_decapitalizeChars ha (recaseAfter a (b :: l))
    obtain ⟨z', hz', hcase'⟩ := exists_decapitalizeChars ha (b :: l)
    rw [hz, hz', List.cons.injEq]
    constructor
    · rintro ⟨_, heq⟩
      exact ⟨heq, by simp⟩
    · rintro ⟨heq, _⟩
      exact ⟨by rw [hcase, hcase', heq], heq⟩

theorem decapitalize_iff_of_no_words (hcs : IsAscii cs) (h : wordsOf cs = []) (start : List Char) :
    decapitalizeChars (upperCamelChars cs ++ start) = decapitalizeChars cs ++ start ↔
      (cs = [] → decapitalizeChars start = start) := by
  rw [upperCamelChars_of_no_words h]
  cases cs with
  | nil => simp [decapitalizeChars, lowerFirst, lowerChars, lowerFrom]
  | cons a l =>
    obtain ⟨ha, _⟩ := IsAscii.cons_iff.1 hcs
    have hupper := isUpper_eq_false ha (wordsOf_eq_nil_iff.1 h a List.mem_cons_self)
    have hlower := (toLower_eq_iff ha).2 hupper
    obtain ⟨z, hz, hcase⟩ := exists_decapitalizeChars ha l
    obtain ⟨z', hz', hcase'⟩ := exists_decapitalizeChars ha (l ++ start)
    simp only [hupper, Bool.false_and, Bool.false_eq_true, if_false, hlower] at hcase hcase'
    simp [hz, hz', hcase, hcase']

end EntityMapping.Naming
