import EntityMapping.Relational.Key

/-! # Tables

The columns of a table have different names, and its keys are its own: their columns are the same
as columns of the table, and it owns its foreign keys.
-/
namespace EntityMapping

structure Table where
  id : TableId
  columns : List Column
  primaryKey : Option PrimaryKey
  foreignKeys : List ForeignKey
  comment : Document
  names_plain : ∀ c ∈ columns, c.name.isPlain
  names_nodup : (columns.map fun c => c.name.key).Nodup
  key_columns : ∀ k ∈ primaryKey, ∀ c ∈ k.columns, (Column.own? columns c).isSome
  foreign_owner : ∀ f ∈ foreignKeys, f.table.same id
  foreign_columns : ∀ f ∈ foreignKeys, ∀ c ∈ f.columns, (Column.own? columns c).isSome
deriving DecidableEq

namespace Table

def column? (t : Table) (name : Name) : Option Column := Column.find? t.columns name

def column (t : Table) (name : Name) : Answer (Option Column) := do
  pure (t.column? (← name.asKey))

def keyColumns (t : Table) : List Column := (t.primaryKey.map PrimaryKey.columns).getD []

def isKeyColumn (t : Table) (name : Name) : Bool := t.keyColumns.any fun c => c.name.same name

def refersOnce (t : Table) (f : ForeignKey) : Bool :=
  t.foreignKeys.all fun g => g.same f || !g.target.same f.target

end Table

/-- The local columns with the columns they refer to: those recorded, else the primary key of the
referenced table when it has as many columns. -/
def ForeignKey.pairs (f : ForeignKey) (referenced : Option Table) : List (Name × Option Name) :=
  let targets :=
    if f.targetColumns.isEmpty then Column.names ((referenced.map Table.keyColumns).getD [])
    else f.targetColumns
  if targets.length = f.columns.length then f.columnNames.zip (targets.map some)
  else f.columnNames.map fun n => (n, none)

end EntityMapping
