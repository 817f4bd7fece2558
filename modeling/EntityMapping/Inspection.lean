import EntityMapping.Description.Rows

/-! # Schemas from an inspected database

An inspector reports the tables of a database one by one. Key columns that are not reported as
columns are passed over, and a foreign key over such a column is left out with a warning.
-/
namespace EntityMapping

structure InspectedKey where
  columns : Answer (List Name) := .ok []
  target : Answer Name
  targetSchema : Name := .null
  targetColumns : Answer (List Name) := .ok []
  name : Name := .null

structure InspectedTable where
  name : Name
  columns : Answer (List Column)
  keyColumns : Answer (List Name) := .ok []
  keyName : Name := .null
  foreignKeys : Answer (List (Answer InspectedKey)) := .ok []
  comment : Answer Document := .ok .null

abbrev Inspector := List InspectedTable

namespace InspectedTable

def typeName (type : Document) : Name :=
  .text (Text.upper ((type.get? "visit_name").getD "VARCHAR").shown)

def column (d type : Document) : Answer Column := do
  pure {
    name := ← d.required "name"
    sqlType := typeName type
    nullable := ((d.get? "nullable").map Document.truthy).getD true
    length := type.field "length"
    precision := type.field "precision"
    scale := type.field "scale" }

/-- The types of all columns are looked at before the first name. -/
def columnsOf (ds : List Document) : Answer (List Column) := do
  let types ← ds.mapM fun d => do (← d.required "type").asRecord
  let columns ← (ds.zip types).mapM fun (d, type) => column d type
  columns.forM fun c => do discard c.name.asKey
  pure columns

def foreignKey (d : Document) : Answer InspectedKey := do
  let d ← d.asRecord
  pure {
    columns := d.givenEntries "constrained_columns"
    target := d.required "referred_table"
    targetSchema := d.givenAt "referred_schema"
    targetColumns := do pure ((← d.givenEntries "referred_columns").filter Document.truthy)
    name := d.field "name" }

def ofDocument (d : Document) : Answer InspectedTable := do
  let name ← (← d.required "name").asKey
  let key := (d.givenAt? "pk").getD (.record [])
  let comment := (d.givenAt? "comment").getD (.record [])
  pure {
    name
    columns := do columnsOf (← (← d.required "columns").entries)
    keyColumns := do (← key.asRecord).givenEntries "constrained_columns"
    keyName := key.field "name"
    foreignKeys := do pure ((← d.entriesAt "fks").map foreignKey)
    comment := do pure ((← comment.asRecord).field "text") }

end InspectedTable

namespace Inspector

def ofDocument (d : Document) : Answer Inspector := do
  (← (← d.required "tables").entries).mapM InspectedTable.ofDocument

def tableNames (i : Inspector) : List Name :=
  (i.map InspectedTable.name).foldl
    (fun ns n => if ns.any (·.same n) then ns else ns ++ [n]) []

/-- What was reported last about a table. -/
def table? (i : Inspector) (name : Name) : Option InspectedTable :=
  i.reverse.find? fun t => t.name.same name

end Inspector

def Column.findAll? (columns : List Column) : List Name → Answer (Option (List Column))
  | [] => .ok (some [])
  | n :: ns => do
    match Column.find? columns (← n.asKey) with
    | none => pure none
    | some c => pure ((← findAll? columns ns).map (c :: ·))

/-- A foreign key is readable when it has local columns and all of them are known. -/
def InspectedKey.localColumns? (columns : List Column) (k : InspectedKey) :
    Answer (Option (List Column)) := do
  let names ← k.columns
  if names.isEmpty then pure none else Column.findAll? columns names

/-- The referenced columns count only if there are as many as local ones. -/
def InspectedKey.declare (id : TableId) (own : List Column) (k : InspectedKey) :
    Answer ForeignKeyDecl := do
  let targets ← k.targetColumns
  let name ← k.target
  pure {
    table := id
    target := { name, schema := if k.targetSchema.truthy then k.targetSchema else id.schema }
    columns := own
    targetColumns := if targets.length = own.length then targets else []
    name := k.name }

def InspectedKey.build? (id : TableId) (columns : List Column) (k : Answer InspectedKey) :
    Report (Option ForeignKey) := do
  let k ← Report.ofAnswer k
  match ← Report.ofAnswer (k.localColumns? columns) with
  | none =>
    Report.warn (.unreadableKey k.name id)
    pure none
  | some own =>
    let declared ← Report.ofAnswer (k.declare id own)
    let key ← Report.ofDefinition declared.build
    pure (some key)

def InspectedTable.buildKey? (t : InspectedTable) (columns : List Column) :
    Report (Option PrimaryKey) := do
  let names ← Report.ofAnswer (do (← t.keyColumns).mapM Document.asKey)
  match names.filterMap (Column.find? columns) with
  | [] => pure none
  | own =>
    let key ← Report.ofDefinition (KeyDecl.build { columns := own, name := t.keyName })
    pure (some key)

def InspectedTable.build (id : TableId) (t : InspectedTable) : Report Table := do
  let columns ← Report.ofAnswer t.columns
  let primaryKey ← t.buildKey? columns
  let inspected ← Report.ofAnswer t.foreignKeys
  let foreignKeys ← Report.collect (InspectedKey.build? id columns) inspected
  let comment ← Report.ofAnswer t.comment
  Report.ofDefinition (Table.build id columns primaryKey foreignKeys comment)

/-- A table that is not described fails with the address of the database. -/
def Inspector.readTable (url : String) (schema : Name) (i : Inspector) (name : Name) :
    Report Table := do
  let name ← Report.ofAnswer name.asKey
  match i.table? name with
  | none => Report.error (.unreadable name url)
  | some t => t.build { name, schema }

def Inspector.read (url : String) (schema : Name) (names : Option Document)
    (i : Inspector) : Report Schema := do
  let names ← match names with
    | none => pure i.tableNames
    | some given => Report.ofAnswer given.entries
  let tables ← names.mapM (i.readTable url schema)
  Report.ofDefinition (Schema.build tables)

def Schema.ofInspection (url : String) (schema : Name) (names : Option Document)
    (reported : Document) : Report Schema := do
  let i ← Report.ofAnswer (Inspector.ofDocument reported)
  i.read url schema names

end EntityMapping
