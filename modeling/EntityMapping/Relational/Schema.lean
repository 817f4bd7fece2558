import EntityMapping.Relational.Table

/-! # Schemas

A schema is a list of tables with different identifiers. A foreign key may refer to a table
outside; within the schema it refers to columns that are there.
-/
namespace EntityMapping

structure Schema where
  tables : List Table
  ids_plain : ∀ t ∈ tables, t.id.isPlain
  ids_nodup : (tables.map fun t => t.id.key).Nodup
  targets_plain : ∀ t ∈ tables, ∀ f ∈ t.foreignKeys, f.target.isPlain
  targets_known : ∀ t ∈ tables, ∀ f ∈ t.foreignKeys, ∀ r ∈ tables, r.id.same f.target →
    ∀ n ∈ f.targetColumns, (r.column? n).isSome
deriving DecidableEq

namespace Schema

def table? (s : Schema) (id : TableId) : Option Table := s.tables.find? fun t => t.id.same id

def table (s : Schema) (id : TableId) : Answer (Option Table) := do pure (s.table? (← id.asKey))

def hasTable (s : Schema) (id : TableId) : Bool := s.tables.any fun t => t.id.same id

/-- Table after table, each in its order. -/
def foreignKeys (s : Schema) : List ForeignKey := s.tables.flatMap Table.foreignKeys

end Schema
end EntityMapping
