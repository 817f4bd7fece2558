import EntityMapping.Description.Schema
import EntityMapping.Proofs.Description.KeyGroup
import EntityMapping.Proofs.Document
import EntityMapping.Proofs.Parallel
import EntityMapping.Proofs.Report

/-! # What a description says

What the fields of a description say about a table, its columns and its keys, and what it means that
a table is read from them. Whatever is read of a description is what its fields say.
-/
namespace EntityMapping

namespace Document

/-- The values that a field lists. -/
def items (key : String) (d : Document) : List Document :=
  match d.get? key with
  | some (.list ds) => ds
  | _ => []

def describedId (t : Document) : TableId where
  name := t.field "name"
  schema := t.field "schema"
  catalog := t.field "catalog"

def describedColumn (c : Document) : Column where
  name := c.field "name"
  sqlType := .text (Text.upper ((c.givenAt? "type").getD "VARCHAR").shown)
  nullable := (c.get? "nullable").getD (.bool true)
  length := c.field "length"
  precision := c.field "precision"
  scale := c.field "scale"

def describedColumns (t : Document) : List Column := (t.items "columns").map describedColumn

/-- The names that the table lists for its primary key, else those of the columns it marks. -/
def describedKey (t : Document) : List Name :=
  if t.items "primary_key" = [] then
    ((t.items "columns").filter fun c => (c.field "primary_key").truthy).map (field "name")
  else t.items "primary_key"

def IsOver (columns : List Column) (row : Document) : Prop :=
  ∃ c ∈ columns, c.name.same (row.field "column")

instance (columns : List Column) : DecidablePred (IsOver columns) := fun row =>
  inferInstanceAs (Decidable (∃ c ∈ columns, c.name.same (row.field "column")))

/-- Foreign key rows by the constraints that they name. -/
def constraints (rows : List Document) : List (Cluster Document) :=
  Cluster.byName (field "name") rows

/-- The foreign key rows that the tables of a name list. -/
def listedFor (name : Name) (ts : List Document) : List Document :=
  (ts.filter fun t => (t.field "name").same name).flatMap (items "foreign_keys")

end Document
open Document

def Column.AreCalled (columns : List Column) (names : List Name) (cs : List Column) : Prop :=
  List.Forall₂ (fun n c => c ∈ columns ∧ c.name.same n) names cs

/-- The foreign key that the rows of a constraint stand for: it leads to the table that the first of
them names, and it keeps the referenced columns if each row gives one. -/
structure ForeignKey.IsReadFrom (id : TableId) (columns : List Column) (g : Cluster Document)
    (f : ForeignKey) : Prop where
  table_eq : f.table = id
  target_eq : f.target = {
    name := g.first.field "references_table"
    schema := (g.first.get? "references_schema").getD id.schema
    catalog := (g.first.get? "references_catalog").getD id.catalog }
  columns_called : Column.AreCalled columns (g.entries.map (field "column")) f.columns
  targets_eq : f.targetColumns =
    if ∀ row ∈ g.entries, (row.field "references_column").truthy then
      g.entries.map (field "references_column") else []
  name_eq : f.name = g.first.givenAt "name"

/-- The table that is described, with a foreign key for each constraint of some rows that is over
columns of the table only. -/
structure Table.IsReadFrom (t : Table) (described : Document) (rows : List Document) : Prop where
  id_eq : t.id = described.describedId
  columns_eq : t.columns = described.describedColumns
  key_called : Column.AreCalled t.columns described.describedKey t.keyColumns
  key_unnamed : ∀ key ∈ t.primaryKey, key.name = .null
  foreignKeys : List.Forall₂ (ForeignKey.IsReadFrom t.id t.columns)
    ((constraints rows).filter fun g => ∀ row ∈ g.entries, row.IsOver t.columns) t.foreignKeys
  comment_eq : t.comment = described.field "description"

theorem Table.IsReadFrom.foreignKeys_eq_nil {t : Table} {described : Document}
    (h : t.IsReadFrom described []) : t.foreignKeys = [] := by
  have hkeys := h.foreignKeys
  rw [constraints, Cluster.byName] at hkeys
  exact List.forall₂_nil_left_iff.1 hkeys

namespace Document
variable {d : Document} {key : String}

theorem isRecord_of_get? {v : Document} (h : d.get? key = some v) : d.isRecord := by
  cases d with
  | record _ => rfl
  | _ => cases h

theorem required_eq_ok {v : Document} (h : d.required key = .ok v) :
    d.isRecord ∧ v = d.field key := by
  unfold required at h
  split at h
  · rename_i hrecord
    refine ⟨hrecord, ?_⟩
    cases hget : d.get? key with
    | none =>
      rw [hget] at h
      cases h
    | some w =>
      rw [hget] at h
      cases h
      rw [field, hget]
      rfl
  · cases h

theorem asRecord_of_isRecord (h : d.isRecord) : d.asRecord = .ok d := if_pos h

theorem asRecord_eq_ok {v : Document} (h : d.asRecord = .ok v) : d.isRecord ∧ v = d := by
  unfold asRecord at h
  split at h
  · rename_i hrecord
    exact ⟨hrecord, (Except.ok.inj h).symm⟩
  · cases h

/-- Entries that are records can only be those of a list. -/
theorem entriesAt_eq_items {ds : List Document} (h : d.entriesAt key = .ok ds)
    (hrecords : ∀ x ∈ ds, x.isRecord) : ds = d.items key := by
  unfold entriesAt at h
  unfold items
  rcases hget : d.get? key with _ | v | items | fields
  · rw [hget] at h
    exact (Except.ok.inj h).symm
  · rw [hget] at h
    cases v with
    | text s =>
      obtain rfl := Except.ok.inj h
      cases hchars : s.toList with
      | nil => rfl
      | cons c cs =>
        rw [hchars] at hrecords
        cases hrecords _ List.mem_cons_self
    | _ => cases h
  · rw [hget] at h
    exact (Except.ok.inj h).symm
  · rw [hget] at h
    obtain rfl := Except.ok.inj h
    cases fields with
    | nil => rfl
    | cons f fs => cases hrecords _ List.mem_cons_self

theorem entriesAt_of_items_ne_nil (h : d.items key ≠ []) : d.entriesAt key = .ok (d.items key) := by
  unfold items at h ⊢
  unfold entriesAt
  rcases hget : d.get? key with _ | _ | ds | _ <;> rw [hget] at h
  · exact absurd rfl h
  · exact absurd rfl h
  · rfl
  · exact absurd rfl h

theorem givenAt_eq (key : String) (d : Document) : d.givenAt key = (d.field key).label := by
  cases hget : d.get? key with
  | none =>
    rw [givenAt, givenAt?, field, hget]
    rfl
  | some v =>
    rw [givenAt, givenAt?, field, hget, Option.filter_some, Option.getD_some, label]
    split <;> rfl

theorem isSome_givenAt? (key : String) (d : Document) :
    (d.givenAt? key).isSome = (d.field key).truthy := by
  cases hget : d.get? key with
  | none =>
    rw [givenAt?, field, hget]
    rfl
  | some v =>
    rw [givenAt?, field, hget, Option.filter_some, Option.getD_some]
    split <;> simp_all

theorem truthy_label (a : Name) : a.label.truthy = a.truthy := by
  unfold label
  split
  · rfl
  · rename_i h
    exact (Bool.not_eq_true _ ▸ h).symm

theorem label_label (a : Name) : a.label.label = a.label := by
  unfold label
  split <;> simp_all

/-- An empty name is as good as none. -/
theorem shares_label (a b : Name) : a.label.shares b.label = a.shares b := by
  rw [Bool.eq_iff_iff, shares_iff, shares_iff, truthy_label]
  refine and_congr_right fun ha => ?_
  rw [label, if_pos ha, label]
  split
  · rfl
  · rename_i hb
    rw [same_eq_false ha (by decide), same_eq_false ha hb]

end Document

def Document.columnRow (c : Document) : ColumnRow where
  column := c.describedColumn
  inKey := (c.field "primary_key").truthy

namespace ColumnRow

theorem ofDocument_eq_ok {c : Document} {row : ColumnRow} (h : ofDocument c = .ok row) :
    c.isRecord ∧ row = c.columnRow := by
  obtain ⟨name, hname, h⟩ := Answer.bind_eq_ok.1 h
  obtain ⟨type, htype, h⟩ := Answer.bind_eq_ok.1 h
  obtain rfl := Answer.pure_eq_ok.1 h
  obtain ⟨hrecord, rfl⟩ := required_eq_ok hname
  obtain ⟨s, hs, htype⟩ := Answer.bind_eq_ok.1 htype
  obtain rfl := Answer.pure_eq_ok.1 htype
  refine ⟨hrecord, ?_⟩
  rw [columnRow, describedColumn, asText_eq_ok hs, isSome_givenAt?]
  rfl

theorem ofDocuments_eq_ok {cs : List Document} {rows : List ColumnRow}
    (h : ofDocuments cs = .ok rows) :
    (∀ c ∈ cs, c.isRecord) ∧ rows = cs.map columnRow := by
  obtain ⟨read, hread, h⟩ := Answer.bind_eq_ok.1 h
  obtain ⟨_, _, h⟩ := Answer.bind_eq_ok.1 h
  obtain rfl := Answer.pure_eq_ok.1 h
  have hall := (Answer.forall₂_of_mapM hread).imp fun _ _ => ofDocument_eq_ok
  refine ⟨fun c hc => ?_, (hall.map_eq fun _ _ hrow => hrow.2.symm).symm⟩
  obtain ⟨_, _, hrecord, _⟩ := hall.exists_right hc
  exact hrecord

end ColumnRow

namespace TableRow
variable {t : Document}

theorem columns_eq_ok {rows : List ColumnRow} (h : (ofDocument t).columns = .ok rows) :
    rows = (t.items "columns").map columnRow := by
  obtain ⟨cs, hcs, h⟩ := Answer.bind_eq_ok.1 h
  obtain ⟨hrecords, rfl⟩ := ColumnRow.ofDocuments_eq_ok h
  rw [entriesAt_eq_items hcs hrecords]

theorem keyNames_eq (t : Document) :
    keyNames (ofDocument t).primaryKey ((t.items "columns").map columnRow) = t.describedKey := by
  have hlisted : (ofDocument t).primaryKey = t.items "primary_key" := by
    simp only [ofDocument, items, field]
    rcases t.get? "primary_key" with _ | _ | _ | _ <;> rfl
  have hmarked : ((t.items "columns").map columnRow).filter ColumnRow.inKey =
      ((t.items "columns").filter fun c => (c.field "primary_key").truthy).map columnRow :=
    List.filter_map
  rw [keyNames, hlisted, hmarked, List.map_map, describedKey]
  simp only [List.isEmpty_iff]
  rfl

end TableRow

namespace KeyRow
variable {row : Document}

theorem named_eq_ok {x : Name × KeyRow} (h : (ofDocument row).named = .ok x) :
    row.isRecord ∧ x = (row.givenAt "name", ofDocument row) := by
  obtain ⟨name, hname, h⟩ := Answer.bind_eq_ok.1 h
  obtain rfl := Answer.pure_eq_ok.1 h
  obtain ⟨v, hv, hkey⟩ := Answer.bind_eq_ok.1 hname
  obtain ⟨hrecord, rfl⟩ := asRecord_eq_ok hv
  obtain ⟨_, rfl⟩ := asKey_eq_ok.1 hkey
  exact ⟨hrecord, rfl⟩

theorem column_eq_ok {name : Name} (h : (ofDocument row).column = .ok name) :
    name = row.field "column" := by
  obtain ⟨_, hcolumn, h⟩ := Answer.bind_eq_ok.1 h
  obtain ⟨_, rfl⟩ := asKey_eq_ok.1 h
  exact (required_eq_ok hcolumn).2

end KeyRow

namespace KeyGroup

def read (g : Cluster Document) : KeyGroup where
  name := g.first.givenAt "name"
  first := KeyRow.ofDocument g.first
  rest := g.rest.map KeyRow.ofDocument

theorem rows_read (g : Cluster Document) : (read g).rows = g.entries.map KeyRow.ofDocument := rfl

theorem ofRows_named (rows : List Document) :
    ofRows (rows.map fun r => (r.givenAt "name", KeyRow.ofDocument r)) =
      (constraints rows).map read := by
  rw [ofRows_eq_byName, Cluster.byName_map, List.map_map, constraints]
  simp only [givenAt_eq]
  rw [Cluster.byName_congr fun a b => shares_label (a.field "name") (b.field "name")]
  refine List.map_congr_left fun g _ => ?_
  simp only [Function.comp, ofCluster, Cluster.map, label_label, List.map_map, read, givenAt_eq]
  rfl

theorem ofRows_of_mapM {rows : List Document} {named : List (Name × KeyRow)}
    (h : (rows.map KeyRow.ofDocument).mapM KeyRow.named = .ok named) :
    ofRows named = (constraints rows).map read := by
  rw [List.mapM_map] at h
  have hnamed := (Answer.forall₂_of_mapM h).map_eq fun _ _ hx => (KeyRow.named_eq_ok hx).2.symm
  rw [← ofRows_named, hnamed]

end KeyGroup
end EntityMapping
