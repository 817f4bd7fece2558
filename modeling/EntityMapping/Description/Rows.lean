import EntityMapping.Report
import EntityMapping.Text.Recase

/-! # Rows of a schema description

A description lists tables with rows for their columns and foreign keys, and relationships that
stand in for the foreign keys when no table has any.
-/
namespace EntityMapping

namespace Document

/-- The value of a field that has to be there, of what has to be a record. -/
def required (key : String) (d : Document) : Answer Document :=
  if d.isRecord then
    match d.get? key with
    | some v => .ok v
    | none => .error (.missing (.text key))
  else .error .noFields

def asRecord (d : Document) : Answer Document := if d.isRecord then .ok d else .error .notRecord

def entriesAt (key : String) (d : Document) : Answer (List Document) :=
  ((d.get? key).getD (list [])).entries

def givenEntries (key : String) (d : Document) : Answer (List Document) :=
  ((d.givenAt? key).getD (list [])).entries

end Document

structure ColumnRow where
  column : Column
  inKey : Bool := false
deriving DecidableEq

namespace ColumnRow

def sqlType (d : Document) : Answer Name := do
  let type ← ((d.givenAt? "type").getD "VARCHAR").asText .notText
  pure (.text (Text.upper type))

def ofDocument (d : Document) : Answer ColumnRow := do
  pure {
    column := {
      name := ← d.required "name"
      sqlType := ← sqlType d
      nullable := (d.get? "nullable").getD (.bool true)
      length := d.field "length"
      precision := d.field "precision"
      scale := d.field "scale" }
    inKey := (d.givenAt? "primary_key").isSome }

/-- All columns are read before their names are looked at. -/
def ofDocuments (ds : List Document) : Answer (List ColumnRow) := do
  let rows ← ds.mapM ofDocument
  rows.forM fun r => do discard r.column.name.asKey
  pure rows

end ColumnRow

/-- A column of a foreign key. The rows of one constraint have its name; the schema and the catalog
of the target are those of the table unless they are given. -/
structure KeyRow where
  name : Answer Name := .ok .null
  column : Answer Name
  target : Answer Name
  targetSchema : Option Name := none
  targetCatalog : Option Name := none
  targetColumn : Name := .null

def KeyRow.ofDocument (d : Document) : KeyRow where
  name := do ((← d.asRecord).givenAt "name").asKey
  column := do (← d.required "column").asKey
  target := d.required "references_table"
  targetSchema := d.get? "references_schema"
  targetCatalog := d.get? "references_catalog"
  targetColumn := d.field "references_column"

structure TableRow where
  name : Answer Name
  schema : Name := .null
  catalog : Name := .null
  columns : Answer (List ColumnRow) := .ok []
  primaryKey : List Name := []
  foreignKeys : Answer (List KeyRow) := .ok []
  comment : Document := .null

def TableRow.ofDocument (d : Document) : TableRow where
  name := d.required "name"
  schema := d.field "schema"
  catalog := d.field "catalog"
  columns := do ColumnRow.ofDocuments (← d.entriesAt "columns")
  primaryKey := match d.field "primary_key" with
    | .list names => names
    | _ => []
  foreignKeys := do
    let rows ← (← d.asRecord).entriesAt "foreign_keys"
    pure (rows.map KeyRow.ofDocument)
  comment := d.field "description"

structure Relationship where
  isManyToOne : Answer Bool := .ok true
  table : Name
  column : Name
  target : Name
  targetColumn : Name := .null

/-- The first of two fields that is not empty, else the second one. -/
def Document.either (first second : String) (d : Document) : Document :=
  (d.givenAt? first <|> d.get? second).getD ""

def Relationship.ofDocument (d : Document) : Relationship where
  isManyToOne := do pure (((← d.asRecord).get? "type").all fun v => v = .text "many-to-one")
  table := d.either "from_table" "from"
  column := d.field "from_column"
  target := d.either "to_table" "to"
  targetColumn := d.field "to_column"

structure Description where
  tables : List TableRow
  relationships : Answer (List Relationship) := .ok []

def Description.ofDocument (d : Document) : Answer Description := do
  let tables ← (← d.asRecord).entriesAt "tables"
  pure {
    tables := tables.map TableRow.ofDocument
    relationships := do pure ((← d.givenEntries "relationships").map Relationship.ofDocument) }

end EntityMapping
