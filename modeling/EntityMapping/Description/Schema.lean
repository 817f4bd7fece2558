import EntityMapping.Description.KeyGroup

/-! # Schemas from descriptions

Foreign key rows are gathered by table name over the whole description and then grouped for each
table. A group over a column that the table does not have is left out with a warning.
-/
namespace EntityMapping

def TableRow.declaredKeys : List TableRow → Answer (List (Name × KeyRow))
  | [] => .ok []
  | t :: ts => do
    let rows ← t.foreignKeys
    let own ← rows.mapM fun row => do pure (← (← t.name).asKey, row)
    let others ← declaredKeys ts
    pure (own ++ others)

def Relationship.key? (r : Relationship) : Answer (Option (Name × KeyRow)) := do
  if (← r.isManyToOne) && r.table.truthy && r.column.truthy then
    let table ← r.table.asKey
    pure (some (table, {
      column := r.column.asKey
      target := .ok r.target
      targetColumn := r.targetColumn }))
  else pure none

def Relationship.keys : List Relationship → Answer (List (Name × KeyRow))
  | [] => .ok []
  | r :: rs => do
    let row ← r.key?
    let rows ← keys rs
    pure (row.toList ++ rows)

/-- The rows of the tables, or those of the relationships when no table has any. -/
def Description.keyRows (d : Description) : Answer (List (Name × KeyRow)) := do
  let declared ← TableRow.declaredKeys d.tables
  if declared.isEmpty then Relationship.keys (← d.relationships) else pure declared

/-- The columns of a group, or the name of the first one that is unknown. -/
def KeyGroup.columnsIn (columns : List Column) : List KeyRow → Answer (Except Name (List Column))
  | [] => .ok (.ok [])
  | row :: rows => do
    let name ← row.column
    match Column.find? columns name with
    | none => pure (.error name)
    | some c =>
      let others ← columnsIn columns rows
      pure (others.map (c :: ·))

def KeyGroup.targetColumns (g : KeyGroup) : List Name :=
  let names := g.rows.map KeyRow.targetColumn
  if names.all Document.truthy then names else []

def KeyGroup.declare (id : TableId) (own : List Column) (g : KeyGroup) :
    Answer ForeignKeyDecl := do
  pure {
    table := id
    target := {
      name := ← g.first.target
      schema := g.first.targetSchema.getD id.schema
      catalog := g.first.targetCatalog.getD id.catalog }
    columns := own
    targetColumns := g.targetColumns
    name := g.name }

def KeyGroup.build? (id : TableId) (columns : List Column) (g : KeyGroup) :
    Report (Option ForeignKey) := do
  match ← Report.ofAnswer (columnsIn columns g.rows) with
  | .error column =>
    Report.warn (.unknownLocalColumn g.name id column)
    pure none
  | .ok own =>
    let declared ← Report.ofAnswer (g.declare id own)
    let key ← Report.ofDefinition declared.build
    pure (some key)

/-- The names of the key columns: those that the table lists, else the marked columns. -/
def keyNames (listed : List Name) (rows : List ColumnRow) : List Name :=
  if listed.isEmpty then (rows.filter ColumnRow.inKey).map fun r => r.column.name else listed

def TableRow.buildKey? (t : TableRow) (table : Name) (rows : List ColumnRow) :
    Report (Option PrimaryKey) := do
  let names ← Report.ofAnswer ((keyNames t.primaryKey rows).mapM Document.asKey)
  let columns := rows.map ColumnRow.column
  let unknown := names.filter fun n => (Column.find? columns n).isNone
  if names.isEmpty then pure none
  else if unknown.isEmpty then
    let key ← Report.ofDefinition
      (KeyDecl.build { columns := names.filterMap (Column.find? columns) })
    pure (some key)
  else Report.error (.definition (.unknownKeyColumns table unknown))

def TableRow.build (keyRows : List (Name × KeyRow)) (t : TableRow) : Report Table := do
  let name ← Report.ofAnswer t.name
  let rows ← Report.ofAnswer t.columns
  let columns := rows.map ColumnRow.column
  let primaryKey ← t.buildKey? name rows
  let name ← Report.ofAnswer name.asKey
  let id : TableId := { name, schema := t.schema, catalog := t.catalog }
  let own := (keyRows.filter fun r => r.1.same name).map Prod.snd
  let named ← Report.ofAnswer (own.mapM KeyRow.named)
  let foreignKeys ← Report.collect (KeyGroup.build? id columns) (KeyGroup.ofRows named)
  Report.ofDefinition (Table.build id columns primaryKey foreignKeys t.comment)

def Description.build (d : Description) : Report Schema := do
  let keyRows ← Report.ofAnswer d.keyRows
  let tables ← d.tables.mapM (TableRow.build keyRows)
  Report.ofDefinition (Schema.build tables)

def Schema.ofDocument (d : Document) : Report Schema := do
  let description ← Report.ofAnswer (Description.ofDocument d)
  description.build

end EntityMapping
