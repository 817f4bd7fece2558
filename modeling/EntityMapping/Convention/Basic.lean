import EntityMapping.Annotations
import EntityMapping.Naming.CamelCase
import EntityMapping.Naming.Composed
import EntityMapping.Naming.Plural
import EntityMapping.Relational.Key

/-! # Conventions

A convention answers every question of naming and typing that an entity leaves open. Five answers
have to be given; the others have neutral defaults, and those that name classes or associations
follow the class names. An answer may be empty, and there may be none at all: then the convention
tells what is wrong.
-/
namespace EntityMapping
open Naming

namespace ForeignKey

/-- What tells two keys with the same target apart: the column, or what the key is called when it
has several columns. -/
def suffix (f : ForeignKey) : Answer String := do
  let name ← match f.columns with
    | [c] => pure c.name
    | _ => if f.name.truthy then pure f.name else do pure (.text (← f.label))
  (← upperCamelName name).asText .notName

def suffixUnless (f : ForeignKey) (once : Bool) : Answer String :=
  if once then .ok "" else do pure ("By" ++ (← f.suffix))

end ForeignKey

def classReferenceName (className : TableId → Answer Name) (f : ForeignKey) (once : Bool) :
    Answer Name := do
  let name := upperCamel (← unqualifyName (← className f.target))
  pure (.text (decapitalize (name ++ (← f.suffixUnless once))))

def classCollectionName (className : TableId → Answer Name) (f : ForeignKey) (once : Bool) :
    Answer Name := do
  let name := plural (decapitalize (← unqualifyName (← className f.table)))
  pure (.text (name ++ (← f.suffixUnless once)))

def classIdName (className : TableId → Answer Name) (t : TableId) : Answer Name := do
  pure (.text ((← (← className t).asText .notName) ++ "Id"))

/-- The flag of a type tells whether the column is part of an identifier, that of an association
whether the key is the only one of its table with this target. -/
structure Convention where
  className : TableId → Answer Name
  propertyName : TableId → Name → Answer Name
  logicalType : TableId → Column → Bool → Answer Name
  isVersionColumn : TableId → Name → Answer Bool
  columnAnnotations : TableId → Name → Answer Document
  tableAnnotations : TableId → Answer Document := fun _ => .ok .null
  lockColumn : TableId → Answer Name := fun _ => .ok .null
  identifierName : TableId → Answer Name := fun _ => .ok .null
  generator : TableId → Answer Name := fun _ => .ok .null
  compositeName : TableId → Answer Name := classIdName className
  referenceName : ForeignKey → Bool → Answer Name := classReferenceName className
  collectionName : ForeignKey → Bool → Answer Name := classCollectionName className
  skipsReference : ForeignKey → Answer Bool := fun _ => .ok false
  skipsCollection : ForeignKey → Answer Bool := fun _ => .ok false
  isInverse : ForeignKey → Answer Bool := fun _ => .ok true
  isLazy : ForeignKey → Answer Bool := fun _ => .ok true

/-- Everything keeps its database name, and all optional answers are the neutral ones. -/
def Convention.plainWith (className : TableId → Answer Name) : Convention where
  className
  propertyName _ column := .ok column
  logicalType _ column _ := do pure (.text (Text.lower (← column.sqlType.asText .notText)))
  isVersionColumn _ column := .ok (column.same "version")
  columnAnnotations _ _ := .ok .null

def plainClassName (t : TableId) : Answer Name := .ok t.name

def Convention.plain : Convention := plainWith plainClassName

end EntityMapping
