import EntityMapping.Relational.Schema

/-! # Declaring a schema

A declaration is what a schema is built from, before its rules are checked. Keys are checked
first, then the table around them, then the schema; the first rule that is broken is reported.
-/
namespace EntityMapping

/-- The rules of a schema, each with what breaks it. The last one is that tables and columns can be
looked up by what they are called. -/
inductive DefinitionError
  | emptyPrimaryKey
  | emptyForeignKey (name : Name) (table : TableId)
  | unpairedColumns (name : Name) (table : TableId) (columns targets : Nat)
  | repeatedColumn (column : Name) (table : TableId)
  | strayKeyColumn (column : Name) (table : TableId)
  | foreignOwner (key : ForeignKey) (table : TableId)
  | strayForeignColumn (column : Name) (table : TableId)
  | repeatedTable (table : TableId)
  | unknownTarget (key : ForeignKey) (column : Name)
  | unknownKeyColumns (table : Name) (columns : List Name)
  | unusableName
deriving DecidableEq

namespace DefinitionError

/-- An error about a name, which has to be one that can be looked up. -/
def about (name : Name) (e : DefinitionError) : DefinitionError :=
  if name.isPlain then e else .unusableName

def message : DefinitionError → Answer String
  | .emptyPrimaryKey => .ok "A primary key needs at least one column"
  | .emptyForeignKey name table => do
    pure ("Foreign key " ++ name.word ++ " on '" ++ (← table.text) ++ "' has no columns")
  | .unpairedColumns name table columns targets => do
    pure ("Foreign key " ++ name.word ++ " on '" ++ (← table.text) ++ "' pairs " ++
      Nat.repr columns ++ " columns with " ++ Nat.repr targets ++ " referenced columns")
  | .repeatedColumn column table => do
    pure ("Column '" ++ column.shown ++ "' defined twice in '" ++ (← table.text) ++ "'")
  | .strayKeyColumn column table => do
    pure ("Primary key column '" ++ column.shown ++ "' does not belong to '" ++
      (← table.text) ++ "'")
  | .foreignOwner key table => do
    pure ("Foreign key " ++ (← key.text) ++ " is owned by '" ++ (← key.table.text) ++
      "', not '" ++ (← table.text) ++ "'")
  | .strayForeignColumn column table => do
    pure ("Foreign key column '" ++ column.shown ++ "' does not belong to '" ++
      (← table.text) ++ "'")
  | .repeatedTable table => do pure ("Table '" ++ (← table.text) ++ "' defined twice")
  | .unknownTarget key column => do
    pure ("Foreign key " ++ (← key.text) ++ " references unknown column '" ++ column.shown ++ "'")
  | .unknownKeyColumns table columns => do
    let names ← columns.mapM (Document.asText .notName)
    pure ("Primary key of " ++ table.shown ++ " names unknown columns: " ++
      ", ".intercalate names)
  | .unusableName => .error .notName

end DefinitionError

section Clashes
variable {α κ : Type} [DecidableEq κ] (isPlain : α → Bool) (key : α → κ)

/-- The first entry that cannot be told apart from others: it is not plain, or its key is among
`seen` or that of an entry before it. -/
def firstClashAfter (seen : List κ) : List α → Option α
  | [] => none
  | a :: l => if isPlain a && key a ∉ seen then firstClashAfter (key a :: seen) l else some a

def firstClash (l : List α) : Option α := firstClashAfter isPlain key [] l

theorem firstClashAfter_eq_none {seen : List κ} {l : List α} :
    firstClashAfter isPlain key seen l = none ↔
      (∀ a ∈ l, isPlain a) ∧ (l.map key).Nodup ∧ ∀ a ∈ l, key a ∉ seen := by
  induction l generalizing seen with
  | nil => simp [firstClashAfter]
  | cons a l ih =>
    by_cases hp : isPlain a
    · by_cases hs : key a ∈ seen
      · simp [firstClashAfter, hs]
      · simp only [firstClashAfter, hp, hs, not_false_iff, decide_true, Bool.and_self, if_true, ih]
        grind
    · simp [firstClashAfter, hp]

theorem firstClash_eq_none {l : List α} :
    firstClash isPlain key l = none ↔ (∀ a ∈ l, isPlain a) ∧ (l.map key).Nodup := by
  simp [firstClash, firstClashAfter_eq_none]

end Clashes

structure KeyDecl where
  columns : List Column
  name : Name := .null
deriving DecidableEq

def KeyDecl.build (k : KeyDecl) : Except DefinitionError PrimaryKey :=
  if h : k.columns = [] then .error .emptyPrimaryKey else .ok ⟨k.columns, k.name, h⟩

structure ForeignKeyDecl where
  table : TableId
  target : TableId
  columns : List Column
  targetColumns : List Name := []
  name : Name := .null
deriving DecidableEq

def ForeignKeyDecl.build (f : ForeignKeyDecl) : Except DefinitionError ForeignKey :=
  if h : f.columns = [] then .error (.emptyForeignKey f.name f.table)
  else if p : f.targetColumns = [] ∨ f.targetColumns.length = f.columns.length then
    .ok ⟨f.table, f.target, f.columns, f.targetColumns, f.name, h, p⟩
  else .error (.unpairedColumns f.name f.table f.columns.length f.targetColumns.length)

def strayColumn? (columns given : List Column) : Option Column :=
  given.find? fun c => (Column.own? columns c).isNone

theorem strayColumn?_eq_none {columns given : List Column} :
    strayColumn? columns given = none ↔ ∀ c ∈ given, (Column.own? columns c).isSome := by
  simp [strayColumn?, Option.isSome_iff_ne_none]

def ForeignKey.fault? (id : TableId) (columns : List Column) (f : ForeignKey) :
    Option DefinitionError :=
  if f.table.same id then
    (strayColumn? columns f.columns).map fun c => .about c.name (.strayForeignColumn c.name id)
  else some (.foreignOwner f id)

theorem ForeignKey.fault?_eq_none {id : TableId} {columns : List Column} {f : ForeignKey} :
    f.fault? id columns = none ↔
      f.table.same id ∧ ∀ c ∈ f.columns, (Column.own? columns c).isSome := by
  unfold fault?
  split <;> simp_all [strayColumn?_eq_none]

def Table.build (id : TableId) (columns : List Column) (primaryKey : Option PrimaryKey)
    (foreignKeys : List ForeignKey) (comment : Document) : Except DefinitionError Table :=
  match hn : firstClash (fun c => c.name.isPlain) (fun c => c.name.key) columns with
  | some c => .error (.about c.name (.repeatedColumn c.name id))
  | none =>
    match hk : strayColumn? columns ((primaryKey.map PrimaryKey.columns).getD []) with
    | some c => .error (.about c.name (.strayKeyColumn c.name id))
    | none =>
      match hf : foreignKeys.findSome? (ForeignKey.fault? id columns) with
      | some e => .error e
      | none => .ok {
          id, columns, primaryKey, foreignKeys, comment
          names_plain := ((firstClash_eq_none _ _).1 hn).1
          names_nodup := ((firstClash_eq_none _ _).1 hn).2
          key_columns := fun k mk c mc =>
            strayColumn?_eq_none.1 hk c (by cases Option.mem_def.1 mk; exact mc)
          foreign_owner := fun f mf =>
            (ForeignKey.fault?_eq_none.1 (List.findSome?_eq_none_iff.1 hf f mf)).1
          foreign_columns := fun f mf =>
            (ForeignKey.fault?_eq_none.1 (List.findSome?_eq_none_iff.1 hf f mf)).2 }

structure TableDecl where
  id : TableId
  columns : List Column := []
  primaryKey : Option KeyDecl := none
  foreignKeys : List ForeignKeyDecl := []
  comment : Document := .null
deriving DecidableEq

def TableDecl.build (t : TableDecl) : Except DefinitionError Table := do
  let primaryKey ← t.primaryKey.mapM KeyDecl.build
  let foreignKeys ← t.foreignKeys.mapM ForeignKeyDecl.build
  Table.build t.id t.columns primaryKey foreignKeys t.comment

def targetFault? (f : ForeignKey) (r : Table) : Option DefinitionError :=
  if r.id.same f.target then
    (f.targetColumns.find? fun n => (r.column? n).isNone).map fun n => .about n (.unknownTarget f n)
  else none

theorem targetFault?_eq_none {f : ForeignKey} {r : Table} :
    targetFault? f r = none ↔
      (r.id.same f.target → ∀ n ∈ f.targetColumns, (r.column? n).isSome) := by
  unfold targetFault?
  split <;> simp_all [Option.isSome_iff_ne_none]

def ForeignKey.referenceFault? (tables : List Table) (f : ForeignKey) : Option DefinitionError :=
  if f.target.isPlain then tables.findSome? (targetFault? f) else some .unusableName

theorem ForeignKey.referenceFault?_eq_none {tables : List Table} {f : ForeignKey} :
    f.referenceFault? tables = none ↔ f.target.isPlain ∧ ∀ r ∈ tables, r.id.same f.target →
      ∀ n ∈ f.targetColumns, (r.column? n).isSome := by
  unfold referenceFault?
  split <;> simp_all [targetFault?_eq_none]

def Schema.build (tables : List Table) : Except DefinitionError Schema :=
  match hi : firstClash (fun t => t.id.isPlain) (fun t => t.id.key) tables with
  | some t => .error (if t.id.isPlain then .repeatedTable t.id else .unusableName)
  | none =>
    match ht : tables.findSome? fun t => t.foreignKeys.findSome? fun f =>
        f.referenceFault? tables with
    | some e => .error e
    | none =>
      have known := fun t mt f mf => ForeignKey.referenceFault?_eq_none.1
        (List.findSome?_eq_none_iff.1 (List.findSome?_eq_none_iff.1 ht t mt) f mf)
      .ok {
        tables
        ids_plain := ((firstClash_eq_none _ _).1 hi).1
        ids_nodup := ((firstClash_eq_none _ _).1 hi).2
        targets_plain := fun t mt f mf => (known t mt f mf).1
        targets_known := fun t mt f mf => (known t mt f mf).2 }

def Schema.declare (tables : List TableDecl) : Except DefinitionError Schema := do
  Schema.build (← tables.mapM TableDecl.build)

end EntityMapping
