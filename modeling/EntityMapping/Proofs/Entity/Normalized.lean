import EntityMapping.Proofs.Entity.Naming
import EntityMapping.Proofs.Relational.Normalized
import Mathlib.Data.List.Find

/-! # Normalized entities

The entity of a normalized table has normalized keys, and may name its associations in another way.
Two entities resemble each other when this is all that tells them apart, and when not even the names
do under a condition.
-/
namespace EntityMapping

variable {s : Settings}

namespace Role

def normalized (s : Settings) : Role → Role
  | reference a => reference { a with key := a.key.map (ForeignKey.normalized s) }
  | collection a o => collection { a with key := a.key.map (ForeignKey.normalized s) } o
  | role => role

def nameless : Role → Role
  | collection a o => collection a { o with name := .null }
  | role => role

@[simp] theorem kind_normalized (r : Role) : (r.normalized s).kind = r.kind := by cases r <;> rfl

end Role

namespace Property

def normalized (s : Settings) (p : Property) : Property := { p with role := p.role.normalized s }

def nameless (p : Property) : Property := { p with name := .null, role := p.role.nameless }

variable (p : Property)

@[simp] theorem normalized_name : (p.normalized s).name = p.name := rfl
@[simp] theorem normalized_kind : (p.normalized s).kind = p.kind := p.role.kind_normalized
@[simp] theorem named_normalized (n : Name) :
    (p.named n).normalized s = (p.normalized s).named n := rfl

theorem foreignKey?_normalized :
    (p.normalized s).foreignKey? = p.foreignKey?.map (ForeignKey.normalized s) := by
  rcases p with ⟨_, role, _, _, _, _, _, _⟩
  cases role <;> rfl

theorem normalized_of_foreignKey? {p : Property} (h : p.foreignKey? = none) :
    p.normalized s = p := by
  rcases p with ⟨_, role, _, _, _, _, _, _⟩
  rcases role with _ | _ | ⟨_, key, _⟩ | ⟨⟨_, key, _⟩, _⟩
  · rfl
  · rfl
  · obtain rfl : key = none := h
    rfl
  · obtain rfl : key = none := h
    rfl

/-- The other property is the normalized one up to names, and with its names under a condition. -/
structure Resembles (s : Settings) (named : Prop) (p p' : Property) : Prop where
  nameless_eq : p'.nameless = (p.normalized s).nameless
  eq : named → p' = p.normalized s

variable {p} {named : Prop} {p' : Property}

theorem resembles_self (h : p.foreignKey? = none) : Resembles s named p p :=
  ⟨by rw [normalized_of_foreignKey? h], fun _ => (normalized_of_foreignKey? h).symm⟩

/-- Properties that resemble others do so when they are named, with the same names if the same names
are in use. -/
theorem nameInOrder_resembles {taken taken' : List Name} {qs qs' : List Property}
    (h : List.Forall₂ (Resembles s named) qs qs') (ht : named → taken' = taken) :
    List.Forall₂ (Resembles s named) (nameInOrder taken qs) (nameInOrder taken' qs') := by
  -- A name that is given depends on those in use, so these have to stay the same along the list.
  induction h generalizing taken taken' with
  | nil => exact .nil
  | @cons q q' _ _ hq _ ih =>
    have hname : named → Naming.fresh taken' q'.name = Naming.fresh taken q.name := by
      intro hn
      rw [ht hn, hq.eq hn, normalized_name]
    refine .cons ⟨hq.nameless_eq, fun hn => ?_⟩ (ih fun hn => ?_)
    · rw [hname hn, hq.eq hn, named_normalized]
    · rw [named_name, named_name, hname hn, ht hn]

end Property

namespace Entity

/-- The entity with its table and its keys normalized. -/
def normalized (s : Settings) (e : Entity) : Entity :=
  { e with
    table := e.table.normalized s
    properties := e.properties.map (Property.normalized s) }

/-- What an entity is apart from the names of its properties. -/
def nameless (e : Entity) : Entity := { e with properties := e.properties.map Property.nameless }

structure Resembles (s : Settings) (named : Prop) (e e' : Entity) : Prop where
  frame_eq : e' = { e with table := e.table.normalized s, properties := e'.properties }
  properties : List.Forall₂ (Property.Resembles s named) e.properties e'.properties

variable {named : Prop} {e e' : Entity}

theorem Resembles.name_eq (h : Resembles s named e e') : e'.name = e.name := by rw [h.frame_eq]

theorem Resembles.table_eq (h : Resembles s named e e') : e'.table = e.table.normalized s := by
  rw [h.frame_eq]

theorem Resembles.hasIdentifier_eq (h : Resembles s named e e') :
    e'.hasIdentifier = e.hasIdentifier := by
  rw [h.frame_eq]
  rfl

theorem Resembles.eq (h : Resembles s named e e') (hn : named) : e' = e.normalized s := by
  have hproperties : e'.properties = e.properties.map (Property.normalized s) :=
    h.properties.flip.eq_map fun p' p hp => hp.eq hn
  rw [h.frame_eq, hproperties]
  rfl

theorem Resembles.nameless_eq (h : Resembles s named e e') :
    e'.nameless = (e.normalized s).nameless := by
  have hproperties : e'.properties.map Property.nameless =
      (e.properties.map (Property.normalized s)).map Property.nameless := by
    rw [List.map_map]
    exact h.properties.flip.map_eq_map fun p' p hp => hp.nameless_eq
  rw [nameless, nameless, hproperties, h.frame_eq]
  rfl

theorem Resembles.freeze (h : Resembles s named e e') : Resembles s named e.freeze e'.freeze :=
  ⟨by rw [h.frame_eq]; rfl, h.properties⟩

@[simp] theorem normalized_names (e : Entity) : (e.normalized s).names = e.names := by
  simp only [names, hasIdentifier, normalized, List.map_map]
  rfl

theorem Resembles.names_eq (h : Resembles s named e e') (hn : named) : e'.names = e.names := by
  rw [h.eq hn, normalized_names]

theorem normalized_references (e : Entity) :
    (e.normalized s).references = e.references.map (Property.normalized s) := by
  simp only [references, ofKinds, normalized, List.filter_map]
  congr 1
  exact List.filter_congr fun p _ => by rw [Function.comp, Property.normalized_kind]

/-- Along a normalized key the normalized entity has the normalized reference. -/
theorem referenceFor?_normalized {schema : Schema} (h : s.Separates schema) {f : ForeignKey}
    (hf : f ∈ schema.foreignKeys)
    (hkeys : ∀ p ∈ e.references, ∀ g ∈ p.foreignKey?, g ∈ schema.foreignKeys) :
    (e.normalized s).referenceFor? (f.normalized s) =
      (e.referenceFor? f).map (Property.normalized s) := by
  rw [referenceFor?, referenceFor?, normalized_references, List.find?_map]
  congr 1
  refine List.find?_congr fun p hp => ?_
  rw [Function.comp, Property.foreignKey?_normalized]
  cases hk : p.foreignKey? with
  | none => rfl
  | some g => exact h.same_foreignKey hf (hkeys p hp g hk)

end Entity
end EntityMapping
