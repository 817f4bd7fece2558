import EntityMapping.Entity.Basic
import EntityMapping.Proofs.Naming.Fresh
import EntityMapping.Proofs.Parallel

/-! # Properties are named in their order

An entity gives its properties their names one after the other: each keeps the name that it was
meant to have, or a numbered one when that is in use. The names alone depend on the order.
-/
namespace EntityMapping

def Entity.HasPlainNames (e : Entity) : Prop := ∀ n ∈ e.names, n.isPlain

namespace Property

def named (p : Property) (n : Name) : Property := { p with name := n }

@[simp] theorem named_name (p : Property) (n : Name) : (p.named n).name = n := rfl

/-- The property is the given one under its own name or a numbered one. -/
def IsNamedFrom (q p : Property) : Prop :=
  p = q.named p.name ∧ Naming.IsVariant q.name p.name

/-- The properties have all in common but the name, and the names differ at most in a number. -/
def DiffersInNumber (p q : Property) : Prop :=
  q = p.named q.name ∧ ∃ base, Naming.IsVariant base p.name ∧ Naming.IsVariant base q.name

theorem IsNamedFrom.differsInNumber {q p p' : Property} (h : IsNamedFrom q p)
    (h' : IsNamedFrom q p') : DiffersInNumber p p' := by
  refine ⟨?_, q.name, h.2, h'.2⟩
  rw [h.1, h'.1]
  rfl

/-- Properties under new names that are given one after the other. -/
def nameInOrder (taken : List Name) : List Property → List Property
  | [] => []
  | q :: qs =>
    let p := q.named (Naming.fresh taken q.name)
    p :: nameInOrder (taken ++ [p.name]) qs

variable {taken : List Name} {qs rs : List Property}

@[simp] theorem nameInOrder_nil : nameInOrder taken [] = [] := rfl

theorem nameInOrder_append : nameInOrder taken (qs ++ rs) =
    nameInOrder taken qs ++ nameInOrder (taken ++ (nameInOrder taken qs).map name) rs := by
  induction qs generalizing taken with
  | nil => simp
  | cons q qs ih => simp [nameInOrder, ih]

theorem nameInOrder_split {before after : List Property} {p : Property}
    (h : nameInOrder taken qs = before ++ p :: after) :
    ∃ sketched q rest, qs = sketched ++ q :: rest ∧ before = nameInOrder taken sketched ∧
      p = q.named (Naming.fresh (taken ++ before.map name) q.name) := by
  induction before generalizing taken qs with
  | nil =>
    cases qs with
    | nil => cases h
    | cons q qs =>
      obtain ⟨rfl, _⟩ := List.cons.inj h
      exact ⟨[], q, qs, rfl, rfl, by simp⟩
  | cons b before ih =>
    cases qs with
    | nil => cases h
    | cons q qs =>
      obtain ⟨rfl, hrest⟩ := List.cons.inj h
      obtain ⟨sketched, q', rest, rfl, rfl, hp⟩ := ih hrest
      exact ⟨q :: sketched, q', rest, rfl, rfl, by simpa using hp⟩

theorem nameInOrder_isNamedFrom :
    List.Forall₂ IsNamedFrom qs (nameInOrder taken qs) := by
  induction qs generalizing taken with
  | nil => exact .nil
  | cons q qs ih => exact .cons ⟨rfl, Naming.fresh_isVariant taken q.name⟩ ih

/-- No name that is given is in use or given again. -/
theorem nameInOrder_names_new :
    ∀ p ∈ nameInOrder taken qs, p.name.key ∉ taken.map Document.key := by
  induction qs generalizing taken with
  | nil => exact nofun
  | cons q qs ih =>
    refine List.forall_mem_cons.2
      ⟨Naming.isTaken_eq_false_iff.1 (Naming.isTaken_fresh taken q.name), fun p hp hm => ?_⟩
    exact ih p hp (by simpa using .inl (List.mem_map.1 hm))

theorem nameInOrder_names_nodup : ((nameInOrder taken qs).map fun p => p.name.key).Nodup := by
  induction qs generalizing taken with
  | nil => exact List.nodup_nil
  | cons q qs ih =>
    refine List.nodup_cons.2 ⟨fun hm => ?_, ih⟩
    obtain ⟨p, hp, hk⟩ := List.mem_map.1 hm
    exact nameInOrder_names_new p hp (by simp [hk])

end Property
end EntityMapping
