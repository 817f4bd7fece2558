import EntityMapping.Relational.Column
import EntityMapping.Relational.TableId

/-! # Primary and foreign keys

A key has at least one column. A foreign key records no referenced columns, meaning the primary
key of the referenced table, or one for each of its own.
-/
namespace EntityMapping

structure PrimaryKey where
  columns : List Column
  name : Name := .null
  columns_ne : columns ≠ []
deriving DecidableEq

def PrimaryKey.isComposite (k : PrimaryKey) : Bool := decide (1 < k.columns.length)

structure ForeignKey where
  table : TableId
  target : TableId
  columns : List Column
  targetColumns : List Name := []
  name : Name := .null
  columns_ne : columns ≠ []
  paired : targetColumns = [] ∨ targetColumns.length = columns.length
deriving DecidableEq

namespace ForeignKey

def columnNames (f : ForeignKey) : List Name := Column.names f.columns

/-- The constraint name, or the column names joined when it has none. -/
def label (f : ForeignKey) : Answer String :=
  if f.name.truthy then .ok f.name.shown
  else do pure ("_".intercalate (← f.columns.mapM Column.text))

def text (f : ForeignKey) : Answer String := do
  pure ((← f.table.text) ++ "." ++ (← f.label) ++ " -> " ++ (← f.target.text))

def key (f : ForeignKey) : TableId × TableId × List Column × List Name × Name :=
  (f.table.key, f.target.key, f.columns.map Column.key, f.targetColumns.map Document.key,
    f.name.key)

def same (f g : ForeignKey) : Bool := f.key = g.key

@[simp] theorem same_self (f : ForeignKey) : f.same f = true := by simp [same]

end ForeignKey
end EntityMapping
