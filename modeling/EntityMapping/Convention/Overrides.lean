import EntityMapping.Convention.Basic
import EntityMapping.Convention.Standard

/-! # Overrides

Single answers of a convention replaced by given ones. A convention that is extended sees the
overridden class names in the names that it derives from them; one that is wrapped does not.
-/
namespace EntityMapping

/-- Answers by the text of a table, of a column with its table, or of a foreign key. An answer that
is given wins, also one that is empty or missing; the lists name columns and keys. -/
structure Overrides where
  classNames : Entries String Document := []
  compositeNames : Entries String Document := []
  identifierNames : Entries String Document := []
  generators : Entries String Document := []
  lockColumns : Entries String Document := []
  tableAnnotations : Entries String Document := []
  propertyNames : Entries String Document := []
  types : Entries String Document := []
  identifierTypes : Entries String Document := []
  columnAnnotations : Entries String Document := []
  referenceNames : Entries String Document := []
  collectionNames : Entries String Document := []
  versionColumns : Option (List String) := none
  skippedReferences : List String := []
  skippedCollections : List String := []
  nonInverse : List String := []
  nonLazy : List String := []
  schemaInClassName : Bool := false

def columnKey (t : TableId) (column : Name) : Answer String := do
  pure ((← t.text) ++ "." ++ column.shown)

/-- The entry under a key, else the answer that it would replace. -/
def givenOr (entries : Entries String Document) (key : Answer String)
    (otherwise : Answer Document) : Answer Document := do
  match entries.get? (← key) with
  | some answer => pure answer
  | none => otherwise

def inSchema (schema name : Name) : Answer Name := do
  let front ← if schema.truthy then schema.asText .notName else pure ""
  pure (.text (front ++ (← name.asText .notName)))

namespace Overrides

def className (o : Overrides) (base : TableId → Answer Name) (t : TableId) : Answer Name := do
  let name ← givenOr o.classNames t.text (base t)
  if o.schemaInClassName then inSchema t.schema name else pure name

def typesFor (o : Overrides) (inIdentifier : Bool) : Entries String Document :=
  if inIdentifier then o.identifierTypes else o.types

def answers (o : Overrides) (c : Convention) : Convention where
  className := c.className
  propertyName t n := givenOr o.propertyNames (columnKey t n) (c.propertyName t n)
  logicalType t col inIdentifier :=
    givenOr (o.typesFor inIdentifier) (columnKey t col.name) (c.logicalType t col inIdentifier)
  isVersionColumn t n := do
    let key ← columnKey t n
    match o.versionColumns with
    | some columns => pure (key ∈ columns)
    | none => c.isVersionColumn t n
  columnAnnotations t n := givenOr o.columnAnnotations (columnKey t n) (c.columnAnnotations t n)
  tableAnnotations t := givenOr o.tableAnnotations t.text (c.tableAnnotations t)
  lockColumn t := givenOr o.lockColumns t.text (c.lockColumn t)
  identifierName t := givenOr o.identifierNames t.text (c.identifierName t)
  generator t := givenOr o.generators t.text (c.generator t)
  compositeName t := givenOr o.compositeNames t.text (c.compositeName t)
  referenceName f once := givenOr o.referenceNames f.text (c.referenceName f once)
  collectionName f once := givenOr o.collectionNames f.text (c.collectionName f once)
  skipsReference f := do pure (decide ((← f.text) ∈ o.skippedReferences) || (← c.skipsReference f))
  skipsCollection f := do
    pure (decide ((← f.text) ∈ o.skippedCollections) || (← c.skipsCollection f))
  isInverse f := do pure (decide ((← f.text) ∉ o.nonInverse) && (← c.isInverse f))
  isLazy f := do pure (decide ((← f.text) ∉ o.nonLazy) && (← c.isLazy f))

/-- The convention that is made for the overridden class names, with the other overrides. -/
def extend (o : Overrides) (make : (TableId → Answer Name) → Convention)
    (className : TableId → Answer Name) : Convention :=
  o.answers (make (o.className className))

def wrap (o : Overrides) (c : Convention) : Convention :=
  o.answers { c with className := o.className c.className }

end Overrides
end EntityMapping
