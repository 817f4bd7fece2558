/-! # Entries under keys

A list of entries answers with the first value under a key, and keeps the order in which the keys
were set first.
-/
namespace EntityMapping

abbrev Entries (κ α : Type) := List (κ × α)

namespace Entries
variable {κ α : Type} [DecidableEq κ]

def get? (es : Entries κ α) (key : κ) : Option α :=
  (es.find? fun e => e.1 = key).map Prod.snd

def set (key : κ) (value : α) : Entries κ α → Entries κ α
  | [] => [(key, value)]
  | e :: es => if e.1 = key then (key, value) :: es else e :: set key value es

@[simp] theorem get?_nil (key : κ) : get? ([] : Entries κ α) key = none := rfl

theorem get?_cons (e : κ × α) (es : Entries κ α) (key : κ) :
    get? (e :: es) key = if e.1 = key then some e.2 else get? es key := by
  by_cases h : e.1 = key <;> simp [get?, h]

theorem get?_set (key k : κ) (value : α) (es : Entries κ α) :
    get? (set key value es) k = if key = k then some value else get? es k := by
  induction es with
  | nil => rw [set, get?_cons]
  | cons e es ih =>
    by_cases h : e.1 = key
    · by_cases hk : key = k <;> simp [set, get?_cons, h, hk]
    · by_cases hk : e.1 = k
      · subst hk; simp [set, get?_cons, h, Ne.symm h]
      · simp [set, get?_cons, h, hk, ih]

end Entries
end EntityMapping
