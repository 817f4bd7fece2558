import EntityMapping.Document.Named
import EntityMapping.Entity.Basic

/-! # The registry of entities

Entities are known by their name and by the table that they were derived from. A name that is
taken is never given again.
-/
namespace EntityMapping

/-- Entities in the order of their registration, the name of the entity of each table, and the
names that other models use for them. -/
structure Registry where
  entities : List Entity := []
  byTable : Entries TableId Name := []
  imports : Named Name := []
deriving DecidableEq

namespace Registry

def names (r : Registry) : List Name := r.entities.map Entity.name

def get? (r : Registry) (name : Name) : Option Entity :=
  r.entities.find? fun e => e.name.same name

def ofTable? (r : Registry) (id : TableId) : Option Entity :=
  (r.byTable.get? id.key).bind r.get?

/-- Appends an entity, or answers with the one that has its name. -/
def register (r : Registry) (e : Entity) : Except Entity Registry :=
  match r.get? e.name with
  | some existing => .error existing
  | none => .ok { r with
      entities := r.entities ++ [e]
      byTable := r.byTable.set e.table.id.key e.name }

def addImport (r : Registry) (name entity : Name) : Registry :=
  { r with imports := r.imports.set name entity }

def update (r : Registry) (e : Entity) : Registry :=
  { r with entities := r.entities.map fun d => if d.name.same e.name then e else d }

end Registry
end EntityMapping
