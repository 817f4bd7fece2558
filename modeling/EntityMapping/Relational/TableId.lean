import EntityMapping.Document.Shown

/-! # Table identifiers

A table is known by catalog, schema and name. The catalog and the schema that a run takes for
granted are left out of its normal form.
-/
namespace EntityMapping

structure TableId where
  name : Name
  schema : Name := .null
  catalog : Name := .null
deriving DecidableEq

namespace TableId

/-- The parts that are not empty, joined by dots, the name last; all of them have to be texts. -/
def text (t : TableId) : Answer String := do
  let parts := [t.catalog, t.schema, t.name].filter Document.truthy
  pure (".".intercalate (← parts.mapM (Document.asText .notName)))

def key (t : TableId) : TableId := ⟨t.name.key, t.schema.key, t.catalog.key⟩

def same (t u : TableId) : Bool := t.key = u.key

@[simp] theorem same_self (t : TableId) : t.same t = true := by simp [same]

theorem same_iff {t u : TableId} : t.same u = true ↔ t.key = u.key := by simp [same]

def isPlain (t : TableId) : Bool := t.name.isPlain && t.schema.isPlain && t.catalog.isPlain

def asKey (t : TableId) : Answer TableId := if t.isPlain then .ok t else .error .notName

def dropDefault (part default : Name) : Name := if part.same default then .null else part

def normalized (t : TableId) (defaultCatalog defaultSchema : Name) : TableId :=
  ⟨t.name, dropDefault t.schema defaultSchema, dropDefault t.catalog defaultCatalog⟩

end TableId

/-- What is taken for granted in a run, and whether an identifier of several columns is flat. -/
structure Settings where
  defaultCatalog : Name := .null
  defaultSchema : Name := .null
  basicComposites : Bool := false
deriving DecidableEq

def Settings.normalize (s : Settings) (t : TableId) : TableId :=
  t.normalized s.defaultCatalog s.defaultSchema

end EntityMapping
