import EntityMapping.Derivation.Reference
import EntityMapping.Entity.Registry

/-! # Collections

The foreign keys that lead to an entity become its collections. They are looked up by the name of
the entity in an index over the whole schema.
-/
namespace EntityMapping

/-- Foreign keys by the name of the entity that they lead to, names in the order of their first
key. -/
structure ReferenceIndex where
  entries : Named (List ForeignKey) := []
deriving DecidableEq

namespace ReferenceIndex

/-- The keys that lead to the entity, none when the index does not have its name. -/
def leadingTo (x : ReferenceIndex) (name : Name) : List ForeignKey :=
  (x.entries.get? name).getD []

def add (x : ReferenceIndex) (name : Name) (f : ForeignKey) : ReferenceIndex :=
  ⟨x.entries.set name (x.leadingTo name ++ [f])⟩

@[simp] theorem leadingTo_empty (name : Name) : leadingTo {} name = [] := rfl

theorem leadingTo_congr (x : ReferenceIndex) {n m : Name} (h : n.same m) :
    x.leadingTo n = x.leadingTo m := by
  simp only [leadingTo, Named.get?, Document.same, Document.same_iff.1 h]

theorem leadingTo_add (x : ReferenceIndex) (name other : Name) (f : ForeignKey) :
    (x.add name f).leadingTo other =
      x.leadingTo other ++ if name.same other then [f] else [] := by
  by_cases h : name.same other
  · rw [← leadingTo_congr x h]
    simp [add, leadingTo, Named.get?_set, h]
  · simp [add, leadingTo, Named.get?_set, h]

/-- The index of all keys whose target is in the schema. -/
def ofSchema (c : Convention) (s : Settings) (schema : Schema) : Answer ReferenceIndex :=
  (schema.foreignKeys.filter fun f => schema.hasTable f.target).foldlM
    (fun x f => do pure (x.add (← (← entityName c s f.target).asKey) f)) {}

end ReferenceIndex

variable (c : Convention)

def collectionProperty (e owner : Entity) (f : ForeignKey) : Answer Property := do
  let name ← c.collectionName f (owner.table.refersOnce f)
  let name ← Naming.freshName e.names name
  let isInverse ← c.isInverse f
  let isLazy ← c.isLazy f
  pure {
    name
    role := .collection { target := owner.name, key := some f, isLazy }
      { name := ((owner.referenceFor? f).map Property.name).getD .null, isInverse }
    columns := f.columns
    type := owner.name }

namespace Entity

def addCollection (e owner : Entity) (f : ForeignKey) : Outcome Entity Property :=
  .ask (collectionProperty c e owner f) e fun p =>
  match e.add p with
  | .error refusal => .refused refusal e
  | .ok e => .done p e

def addCollections (r : Registry) : List ForeignKey → Entity → Outcome Entity (List Property)
  | [], e => .done [] e
  | f :: fs, e =>
    .ask (c.skipsCollection f) e fun isSkipped =>
    if isSkipped then addCollections r fs e
    else match r.ofTable? f.table with
      | none => .warn (.ownerUnbound f) e (addCollections r fs e)
      | some owner => (addCollection c e owner f).andThen fun p e =>
        (addCollections r fs e).map (p :: ·)

/-- Adds the collections of an entity, which needs an identifier as soon as a key leads to it. -/
def collect (x : ReferenceIndex) (r : Registry) (e : Entity) : Outcome Entity (List Property) :=
  .ask e.name.asKey e fun name =>
  match x.leadingTo name with
  | [] => .done [] e
  | fs =>
    if e.hasIdentifier then addCollections c r fs e
    else .refused (.noIdentifier e.name e.table.id) e

end Entity
end EntityMapping
