import EntityMapping.Document

/-! # Values under names

Values under names, in the order in which the names came first. Names that mean the same are one,
and it is spelled as it came first.
-/
namespace EntityMapping

abbrev Named (α : Type) := List (Name × α)

namespace Named
variable {α : Type}

def get? (es : Named α) (name : Name) : Option α :=
  (es.find? fun e => e.1.same name).map Prod.snd

def set (name : Name) (value : α) : Named α → Named α
  | [] => [(name, value)]
  | e :: es => if e.1.same name then (e.1, value) :: es else e :: set name value es

@[simp] theorem get?_nil (name : Name) : get? ([] : Named α) name = none := rfl

theorem get?_cons (e : Name × α) (es : Named α) (name : Name) :
    get? (e :: es) name = if e.1.same name then some e.2 else get? es name := by
  by_cases h : e.1.same name <;> simp [get?, h]

theorem get?_set (name n : Name) (value : α) (es : Named α) :
    get? (set name value es) n = if name.same n then some value else get? es n := by
  induction es with
  | nil => rw [set, get?_cons]
  | cons e es ih =>
    by_cases h : e.1.same name
    · have hn : e.1.same n = name.same n := by
        simp only [Document.same, Document.same_iff.1 h]
      by_cases hk : name.same n <;> simp [set, get?_cons, h, hn, hk]
    · by_cases hk : e.1.same n
      · have hn : name.same n = false := by
          rw [Bool.eq_false_iff]
          intro hn
          have he := (Document.same_iff.1 hk).trans (Document.same_iff.1 hn).symm
          exact h (Document.same_iff.2 he)
        simp [set, get?_cons, h, hk, hn]
      · simp [set, get?_cons, h, hk, ih]

theorem set_of_get?_eq_none {name : Name} {es : Named α} (h : get? es name = none) (value : α) :
    set name value es = es ++ [(name, value)] := by
  induction es with
  | nil => rfl
  | cons e es ih =>
    rw [get?_cons] at h
    split at h
    · cases h
    · rename_i he
      rw [set, if_neg he, ih h, List.cons_append]

end Named
end EntityMapping
