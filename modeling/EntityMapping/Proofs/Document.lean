import EntityMapping.Document.Shown

/-! # Values of one kind

Among texts and missing values nothing is spelled in two ways: what means the same is the same.
-/
namespace EntityMapping.Document

def IsText (d : Document) : Prop := ∃ s, d = .text s

def IsOptionalText (d : Document) : Prop := d = .null ∨ d.IsText

@[simp] theorem isText_text (s : String) : IsText (.text s) := ⟨s, rfl⟩

@[simp] theorem isOptionalText_null : IsOptionalText .null := .inl rfl

instance (d : Document) : Decidable d.IsText :=
  match d with
  | .text s => isTrue ⟨s, rfl⟩
  | .plain .null | .plain (.bool _) | .plain (.int _) | .list _ | .record _ =>
    isFalse fun ⟨_, h⟩ => nomatch h

instance (d : Document) : Decidable d.IsOptionalText := inferInstanceAs (Decidable (_ ∨ _))

def IsFlag (d : Document) : Prop := d = .bool true ∨ d = .bool false

def IsOptionalNumber (d : Document) : Prop := d = .null ∨ ∃ n, d = .plain (.int n)

instance (d : Document) : Decidable d.IsFlag := inferInstanceAs (Decidable (_ ∨ _))

instance (d : Document) : Decidable d.IsOptionalNumber :=
  match d with
  | .plain .null => isTrue (.inl rfl)
  | .plain (.int n) => isTrue (.inr ⟨n, rfl⟩)
  | .plain (.bool _) | .text _ | .list _ | .record _ => isFalse nofun

theorem IsOptionalText.isText {d : Document} (h : d.IsOptionalText) (ht : d.truthy) : d.IsText := by
  rcases h with rfl | h
  · simp [truthy, Scalar.truthy] at ht
  · exact h

theorem asText_of_isText {d : Document} (h : d.IsText) (fault : Malformed) :
    d.asText fault = .ok d.shown := by
  obtain ⟨s, rfl⟩ := h
  rfl

theorem asText_eq_ok {d : Document} {fault : Malformed} {s : String} (h : d.asText fault = .ok s) :
    d = .text s := by
  rcases d with (_ | _ | _ | _) | _ | _
  all_goals cases h
  rfl

theorem asKey_of_isText {d : Document} (h : d.IsText) : d.asKey = .ok d := by
  obtain ⟨s, rfl⟩ := h
  rfl

theorem asKey_eq_ok {d k : Document} : d.asKey = .ok k ↔ d.isPlain ∧ k = d := by
  unfold asKey
  split
  · rename_i h
    simp only [h, true_and, Except.ok.injEq]
    exact eq_comm
  · rename_i h
    simp [h]

theorem IsText.optional {d : Document} (h : d.IsText) : d.IsOptionalText := .inr h

theorem IsText.isPlain {d : Document} (h : d.IsText) : d.isPlain := by
  obtain ⟨s, rfl⟩ := h
  rfl

theorem IsOptionalText.isPlain {d : Document} (h : d.IsOptionalText) : d.isPlain := by
  rcases h with rfl | h
  · rfl
  · exact h.isPlain

theorem key_eq_text {d : Document} {s : String} : d.key = .text s ↔ d = .text s := by
  constructor
  · intro h
    rcases d with v | _ | _
    · cases v <;> simp_all [key, Scalar.key]
    · simp [key] at h
    · simp [key] at h
  · rintro rfl
    rfl

theorem key_eq_null {d : Document} : d.key = .null ↔ d = .null := by
  constructor
  · intro h
    rcases d with v | _ | _
    · cases v <;> simp_all [key, Scalar.key]
    · simp [key] at h
    · simp [key] at h
  · rintro rfl
    rfl

theorem IsText.eq_of_key {a b : Document} (ha : a.IsText) (h : a.key = b.key) : a = b := by
  obtain ⟨s, rfl⟩ := ha
  exact (key_eq_text.1 (h.symm.trans (key_text s))).symm

theorem IsOptionalText.eq_of_key {a b : Document} (ha : a.IsOptionalText) (h : a.key = b.key) :
    a = b := by
  rcases ha with rfl | ha
  · exact (key_eq_null.1 h.symm).symm
  · exact ha.eq_of_key h

theorem IsFlag.eq_of_key {a b : Document} (ha : a.IsFlag) (hb : b.IsFlag) (h : a.key = b.key) :
    a = b := by
  rcases ha with rfl | rfl <;> rcases hb with rfl | rfl <;>
    first | rfl | simp [key, Scalar.key] at h

theorem IsOptionalNumber.eq_of_key {a b : Document} (ha : a.IsOptionalNumber)
    (hb : b.IsOptionalNumber) (h : a.key = b.key) : a = b := by
  rcases ha with rfl | ⟨n, rfl⟩
  · exact (key_eq_null.1 h.symm).symm
  · rcases hb with rfl | ⟨m, rfl⟩
    · simp [key, Scalar.key] at h
    · simpa [key, Scalar.key] using h

end EntityMapping.Document
