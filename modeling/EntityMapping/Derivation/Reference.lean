import EntityMapping.Derivation.ColumnProperty
import EntityMapping.Relational.Schema

/-! # References

A foreign key within the schema becomes a reference to the entity of its target, unless the
convention leaves it out or its columns already have a place in the identifier.
-/
namespace EntityMapping
variable (c : Convention) (s : Settings)

def entityName (id : TableId) : Answer Name := c.className (s.normalize id)

inductive Treatment
  | skipped
  | claimed
  | bound (mutable : Bool)
deriving DecidableEq

/-- A key over claimed columns is bound only with basic composite identifiers, and cannot be
changed then. -/
def treatment (claims : Claims) (f : ForeignKey) : Answer Treatment := do
  if ← c.skipsReference f then pure .skipped
  else if claims.hasAll f.columns then
    if s.basicComposites then pure (.bound false) else pure .claimed
  else pure (.bound true)

def referenceProperty (e : Entity) (f : ForeignKey) (mutable : Bool) : Answer Property := do
  let name ← c.referenceName f (e.table.refersOnce f)
  let name ← Naming.freshName e.names name
  let target ← entityName c s f.target
  pure {
    name
    role := .reference { target, key := some f }
    columns := f.columns
    type := target
    nullable := f.columns.all fun col => col.nullable.truthy
    mutable }

namespace Draft

def addReference (d : Draft) (f : ForeignKey) (mutable : Bool) : Outcome Draft Property :=
  .ask (referenceProperty c s d.entity f mutable) d fun p =>
  match d.entity.add p with
  | .error r => .refused r d
  | .ok e => .done p ⟨e, d.claims.insertAll f.columns⟩

def addReferences (schema : Schema) : List ForeignKey → Draft → Outcome Draft (List Property)
  | [], d => .done [] d
  | f :: fs, d =>
    if schema.hasTable f.target then
      .ask (treatment c s d.claims f) d fun
        | .skipped | .claimed => addReferences schema fs d
        | .bound mutable => (addReference c s d f mutable).andThen fun p d =>
          (addReferences schema fs d).map (p :: ·)
    else .warn (.targetOutside f) d (addReferences schema fs d)

def addReferencesOf (schema : Schema) (d : Draft) : Outcome Draft (List Property) :=
  addReferences c s schema d.entity.table.foreignKeys d

end Draft
end EntityMapping
