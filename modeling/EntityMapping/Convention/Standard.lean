import EntityMapping.Convention.Basic
import EntityMapping.Convention.LogicalType

/-! # The standard convention

Classes in upper camel case under a package, properties in lower camel case, and a reference over
a single column that ends in the word id named after what is in front of that word.
-/
namespace EntityMapping
open Naming Text

def isVersionName (column : String) : Bool := lower column ∈ ["version", "timestamp"]

def idStem? (ws : List String) : Option (List String) :=
  if 1 < ws.length ∧ ws.getLast?.any (fun w => lower w = "id") then some ws.dropLast else none

/-- The stem of the only column of a key that is the only one with its target. -/
def keyStem? (f : ForeignKey) (once : Bool) : Answer (Option (List String)) :=
  match once, f.columns with
  | true, [c] => do pure (idStem? (← wordsOfName c.name))
  | _, _ => .ok none

def standardReferenceName (className : TableId → Answer Name) (f : ForeignKey) (once : Bool) :
    Answer Name := do
  match ← keyStem? f once with
  | some stem => pure (.text (lowerCamel ("_".intercalate stem)))
  | none => classReferenceName className f once

namespace Convention

def standardWith (className : TableId → Answer Name) : Convention where
  className
  propertyName _ column := lowerCamelName column
  logicalType _ column _ := do pure (.text (← LogicalType.ofColumn column))
  isVersionColumn _ column := do pure (isVersionName (← column.asText .notText))
  columnAnnotations _ _ := .ok .null
  referenceName := standardReferenceName className

def standardClassName (package : Name) (t : TableId) : Answer Name := do
  pure (qualify package (← upperCamelName t.name))

def standard (package : Name) : Convention := standardWith (standardClassName package)

end Convention
end EntityMapping
