import EntityMapping.Naming.Words

/-! # What the words of an identifier are

Every word has characters of the identifier, which are letters or numbers, and either all of them
are digits or none is. An identifier without other characters is a single run.
-/
namespace EntityMapping.Naming
open Text

variable {cs w : List Char} {ws : List (List Char)} {c : Char}

theorem mem_attach (h : w ∈ attach c ws) : w = [c] ∨ (∃ v ∈ ws, w = c :: v) ∨ w ∈ ws := by
  cases ws with
  | nil => exact .inl (List.mem_singleton.1 h)
  | cons v ws =>
    rcases List.mem_cons.1 h with rfl | h
    · exact .inr (.inl ⟨v, List.mem_cons_self, rfl⟩)
    · exact .inr (.inr (List.mem_cons_of_mem _ h))

theorem attach_ne_nil : attach c ws ≠ [] := by
  cases ws <;> simp [attach]

theorem mem_runs (h : w ∈ runs cs) : w ≠ [] ∧ ∀ x ∈ w, x ∈ cs ∧ isAlphanumeric x := by
  induction cs generalizing w with
  | nil => cases h
  | cons c cs ih =>
    have later : w ∈ runs cs → w ≠ [] ∧ ∀ x ∈ w, x ∈ c :: cs ∧ isAlphanumeric x := fun h =>
      ⟨(ih h).1, fun x hx => ⟨List.mem_cons_of_mem _ ((ih h).2 x hx).1, ((ih h).2 x hx).2⟩⟩
    rw [runs] at h
    split at h
    · rename_i hc
      have single : [c] ≠ [] ∧ ∀ x ∈ [c], x ∈ c :: cs ∧ isAlphanumeric x := by simp [hc]
      split at h
      · rcases mem_attach h with rfl | ⟨v, hv, rfl⟩ | h
        · exact single
        · refine ⟨List.cons_ne_nil _ _, List.forall_mem_cons.2 ⟨⟨List.mem_cons_self, hc⟩, ?_⟩⟩
          intro x hx
          obtain ⟨hmem, halnum⟩ := (ih hv).2 x hx
          exact ⟨List.mem_cons_of_mem _ hmem, halnum⟩
        · exact later h
      · rcases List.mem_cons.1 h with rfl | h
        · exact single
        · exact later h
    · exact later h

theorem runs_eq_nil_iff : runs cs = [] ↔ ∀ c ∈ cs, isAlphanumeric c = false := by
  induction cs with
  | nil => simp [runs]
  | cons c cs ih =>
    rw [runs]
    cases hc : isAlphanumeric c with
    | true =>
      refine iff_of_false ?_ fun hall => by simp [hall c List.mem_cons_self] at hc
      rw [if_pos rfl]
      split
      · exact attach_ne_nil
      · exact List.cons_ne_nil _ _
    | false => simpa [hc] using ih

theorem runs_eq_singleton (hne : cs ≠ []) (h : ∀ c ∈ cs, isAlphanumeric c) : runs cs = [cs] := by
  induction cs with
  | nil => exact absurd rfl hne
  | cons c cs ih =>
    obtain ⟨hc, hcs⟩ := List.forall_mem_cons.1 h
    rw [runs, if_pos hc]
    cases cs with
    | nil => rfl
    | cons b bs =>
      rw [List.head?_cons, Option.any_some, if_pos (hcs b List.mem_cons_self),
        ih (List.cons_ne_nil _ _) hcs]
      rfl

theorem segments_cons (c : Char) (cs : List Char) :
    ∃ w ws, segments (c :: cs) = (c :: w) :: ws := by
  rw [segments]
  split
  · exact ⟨[], _, rfl⟩
  · cases segments cs with
    | nil => exact ⟨[], [], rfl⟩
    | cons v vs => exact ⟨v, vs, rfl⟩

theorem isDigit_eq_of_not_breaksAfter {b : Char} (h : ¬ breaksAfter c (b :: cs)) :
    isDigit c = isDigit b := by
  simp only [breaksAfter, boundary, Bool.or_eq_true, not_or, bne_iff_ne, ne_eq,
    Decidable.not_not] at h
  exact h.1.1

theorem mem_segments (h : w ∈ segments cs) :
    w ≠ [] ∧ w ⊆ cs ∧ ∀ x ∈ w, ∀ y ∈ w, isDigit x = isDigit y := by
  induction cs generalizing w with
  | nil => cases h
  | cons c cs ih =>
    have later : w ∈ segments cs →
        w ≠ [] ∧ w ⊆ c :: cs ∧ ∀ x ∈ w, ∀ y ∈ w, isDigit x = isDigit y := fun h =>
      ⟨(ih h).1, List.subset_cons_of_subset _ (ih h).2.1, (ih h).2.2⟩
    have single : [c] ≠ [] ∧ [c] ⊆ c :: cs ∧ ∀ x ∈ [c], ∀ y ∈ [c], isDigit x = isDigit y := by simp
    rw [segments] at h
    split at h
    · rcases List.mem_cons.1 h with rfl | h
      · exact single
      · exact later h
    · rename_i hjoined
      cases cs with
      | nil =>
        obtain rfl : w = [c] := List.mem_singleton.1 h
        exact single
      | cons b bs =>
        have hdigit := isDigit_eq_of_not_breaksAfter hjoined
        obtain ⟨v, vs, hsegments⟩ := segments_cons b bs
        rw [hsegments] at h ih
        rcases List.mem_cons.1 h with rfl | h
        · obtain ⟨_, hsub, hsame⟩ := ih List.mem_cons_self
          refine ⟨List.cons_ne_nil _ _, List.cons_subset_cons _ hsub, ?_⟩
          have hfirst : ∀ x ∈ c :: b :: v, isDigit x = isDigit b := by
            refine List.forall_mem_cons.2 ⟨hdigit, fun x hx => ?_⟩
            exact hsame x hx b List.mem_cons_self
          exact fun x hx y hy => (hfirst x hx).trans (hfirst y hy).symm
        · obtain ⟨hne, hsub, hsame⟩ := ih (List.mem_cons_of_mem _ h)
          exact ⟨hne, List.subset_cons_of_subset _ hsub, hsame⟩

theorem mem_wordsOf (h : w ∈ wordsOf cs) : w ≠ [] ∧ (∀ x ∈ w, x ∈ cs ∧ isAlphanumeric x) ∧
    ∀ x ∈ w, ∀ y ∈ w, isDigit x = isDigit y := by
  obtain ⟨r, hr, hw⟩ := List.mem_flatMap.1 h
  obtain ⟨hne, hsub, hsame⟩ := mem_segments hw
  exact ⟨hne, fun x hx => (mem_runs hr).2 x (hsub hx), hsame⟩

/-- Only an identifier without letters and numbers has no words. -/
theorem wordsOf_eq_nil_iff : wordsOf cs = [] ↔ ∀ c ∈ cs, isAlphanumeric c = false := by
  rw [← runs_eq_nil_iff, wordsOf]
  constructor
  · intro h
    cases hruns : runs cs with
    | nil => rfl
    | cons r rs =>
      have hr : r ∈ runs cs := by simp [hruns]
      obtain ⟨c, cs, rfl⟩ := List.exists_cons_of_ne_nil (mem_runs hr).1
      obtain ⟨v, vs, hsegments⟩ := segments_cons c cs
      rw [List.flatMap_eq_nil_iff.1 h _ hr] at hsegments
      cases hsegments
  · intro h
    rw [h]
    rfl

/-- Letters and numbers without anything between them are cut only where the case or the kind of
the character changes. -/
theorem wordsOf_of_alphanumeric (h : ∀ c ∈ cs, isAlphanumeric c) : wordsOf cs = segments cs := by
  cases cs with
  | nil => rfl
  | cons c cs => rw [wordsOf, runs_eq_singleton (List.cons_ne_nil _ _) h, List.flatMap_singleton]

end EntityMapping.Naming
