import EntityMapping.Proofs.Description.Typed

/-! # Relationships in place of foreign key rows

Where no table of a description lists foreign key rows, a relationship counts as a row of the first
table that it leads from. The description that lists these rows there and has no relationships is
read in the same way.
-/
namespace EntityMapping

namespace Document

def setField (d : Document) (key : String) (value : Document) : Document :=
  match d with
  | .record fields => .record (Entries.set key value fields)
  | _ => d

def eraseField (key : String) : Document → Document
  | .record fields => .record (fields.filter fun f => f.1 ≠ key)
  | d => d

variable {d v : Document} {key k : String}

theorem get?_setField (h : d.isRecord) :
    (d.setField key v).get? k = if key = k then some v else d.get? k := by
  cases d with
  | record fields => exact Entries.get?_set key k v fields
  | _ => cases h

theorem get?_eraseField : (d.eraseField key).get? k = if key = k then none else d.get? k := by
  cases d with
  | record fields =>
    rw [eraseField, get?, get?, Entries.get?, Entries.get?, List.find?_filter]
    split
    · rename_i heq
      rw [Option.map_eq_none_iff, List.find?_eq_none]
      simp [heq]
    · rename_i hne
      congr 2
      funext f
      by_cases hf : f.1 = k
      · simp [hf, Ne.symm hne]
      · simp [hf]
  | _ => simp [eraseField, get?]

@[simp] theorem isRecord_setField : (d.setField key v).isRecord = d.isRecord := by
  cases d <;> rfl

@[simp] theorem isRecord_eraseField : (d.eraseField key).isRecord = d.isRecord := by
  cases d <;> rfl

theorem get?_setField_ne (hne : key ≠ k) : (d.setField key v).get? k = d.get? k := by
  by_cases h : d.isRecord
  · rw [get?_setField h, if_neg hne]
  · cases d with
    | record _ => exact absurd rfl h
    | _ => rfl

theorem items_setField (h : d.isRecord) {ds : List Document} :
    (d.setField key (.list ds)).items key = ds := by
  rw [items, get?_setField h, if_pos rfl]

theorem lists_setField {P : Document → Prop} (h : d.isRecord) {ds : List Document}
    (hds : ∀ x ∈ ds, P x) : (d.setField key (.list ds)).Lists key P := by
  rw [Lists, get?_setField h, if_pos rfl]
  exact ⟨ds, rfl, hds⟩

/-- The relationship leads from a column of a table to one other table. -/
def leadsFromColumn (relationship : Document) : Bool :=
  ((relationship.get? "type").all fun v => v = .text "many-to-one") &&
    (relationship.either "from_table" "from").truthy && (relationship.field "from_column").truthy

/-- The foreign key row without a name that a relationship stands for. -/
def keyRowOf (relationship : Document) : Document :=
  .record [("column", relationship.field "from_column"),
    ("references_table", relationship.either "to_table" "to"),
    ("references_column", relationship.field "to_column")]

def namedKeyRows (d : Document) : List (Name × Document) :=
  ((d.items "relationships").filter leadsFromColumn).map fun relationship =>
    (relationship.either "from_table" "from", relationship.keyRowOf)

def addKeyRow (t row : Document) : Document :=
  t.setField "foreign_keys" (.list (t.items "foreign_keys" ++ [row]))

/-- Appends a foreign key row to the first table of its name; it is dropped if there is none. -/
def appendKeyRow : List Document → Name × Document → List Document
  | [], _ => []
  | t :: ts, named =>
    if (t.field "name").same named.1 then t.addKeyRow named.2 :: ts
    else t :: appendKeyRow ts named

/-- The description without relationships in which they are foreign key rows of the tables that they
lead from. -/
def withKeyRows (d : Document) : Document :=
  (d.eraseField "relationships").setField "tables"
    (.list (d.namedKeyRows.foldl appendKeyRow (d.items "tables")))

theorem field_setField_ne (hne : key ≠ k) : (d.setField key v).field k = d.field k := by
  rw [field, get?_setField_ne hne, field]

variable {t row : Document}

@[simp] theorem name_addKeyRow : (t.addKeyRow row).field "name" = t.field "name" :=
  field_setField_ne (by decide)

theorem items_addKeyRow (ht : t.IsTableRow) :
    (t.addKeyRow row).items "foreign_keys" = t.items "foreign_keys" ++ [row] :=
  items_setField (isRecord_of_isText ht.name)

theorem IsTableRow.addKeyRow (ht : t.IsTableRow) (hrow : row.IsKeyRow) :
    (t.addKeyRow row).IsTableRow := by
  have hfield : ∀ k, "foreign_keys" ≠ k → (t.addKeyRow row).field k = t.field k := fun k =>
    field_setField_ne
  refine ⟨hfield "name" (by decide) ▸ ht.name, hfield "schema" (by decide) ▸ ht.schema,
    hfield "catalog" (by decide) ▸ ht.catalog, ?_, ?_,
    hfield "primary_key" (by decide) ▸ ht.primaryKey⟩
  · rw [Lists, Document.addKeyRow, get?_setField_ne (by decide)]
    exact ht.columns
  · refine lists_setField (isRecord_of_isText ht.name) fun x hx => ?_
    rcases List.mem_append.1 hx with hx | hx
    · exact ht.foreignKeys.mem hx
    · rw [List.mem_singleton.1 hx]
      exact hrow

end Document

def TableRow.withoutKeys (row : TableRow) : TableRow := { row with foreignKeys := .ok [] }

namespace Document
variable {t row : Document}

theorem withoutKeys_addKeyRow :
    (TableRow.ofDocument (t.addKeyRow row)).withoutKeys = (TableRow.ofDocument t).withoutKeys := by
  simp [TableRow.withoutKeys, TableRow.ofDocument, addKeyRow, required, entriesAt,
    field_setField_ne, get?_setField_ne]

variable {ts : List Document} {named : Name × Document} {rows : List (Name × Document)}

theorem isTableRow_appendKeyRow (hts : ∀ t ∈ ts, t.IsTableRow) (hrow : named.2.IsKeyRow) :
    ∀ t ∈ appendKeyRow ts named, t.IsTableRow := by
  induction ts with
  | nil => exact nofun
  | cons t ts ih =>
    obtain ⟨ht, hrest⟩ := List.forall_mem_cons.1 hts
    rw [appendKeyRow]
    split
    · exact List.forall_mem_cons.2 ⟨ht.addKeyRow hrow, hrest⟩
    · exact List.forall_mem_cons.2 ⟨ht, ih hrest⟩

theorem withoutKeys_appendKeyRow :
    (appendKeyRow ts named).map (fun t => (TableRow.ofDocument t).withoutKeys) =
      ts.map fun t => (TableRow.ofDocument t).withoutKeys := by
  induction ts with
  | nil => rfl
  | cons t ts ih =>
    rw [appendKeyRow]
    split
    · rw [List.map_cons, List.map_cons, withoutKeys_addKeyRow]
    · rw [List.map_cons, List.map_cons, ih]

theorem isTableRow_foldl_appendKeyRow (hts : ∀ t ∈ ts, t.IsTableRow)
    (hrows : ∀ r ∈ rows, r.2.IsKeyRow) : ∀ t ∈ rows.foldl appendKeyRow ts, t.IsTableRow := by
  induction rows generalizing ts with
  | nil => exact hts
  | cons r rows ih =>
    obtain ⟨hr, hrest⟩ := List.forall_mem_cons.1 hrows
    exact ih (isTableRow_appendKeyRow hts hr) hrest

theorem withoutKeys_foldl_appendKeyRow :
    (rows.foldl appendKeyRow ts).map (fun t => (TableRow.ofDocument t).withoutKeys) =
      ts.map fun t => (TableRow.ofDocument t).withoutKeys := by
  induction rows generalizing ts with
  | nil => rfl
  | cons r rows ih => rw [List.foldl_cons, ih, withoutKeys_appendKeyRow]

/-- The first table takes the rows of its name, and the others are left to the tables behind it. -/
theorem foldl_appendKeyRow_cons : rows.foldl appendKeyRow (t :: ts) =
    ((rows.filter fun r => (t.field "name").same r.1).map Prod.snd).foldl addKeyRow t ::
      (rows.filter fun r => !(t.field "name").same r.1).foldl appendKeyRow ts := by
  induction rows generalizing t ts with
  | nil => rfl
  | cons r rows ih =>
    rw [List.foldl_cons, appendKeyRow]
    cases hsame : (t.field "name").same r.1 with
    | true => simp [ih, hsame]
    | false => simp [ih, hsame]

theorem foldl_appendKeyRow_nil : rows.foldl appendKeyRow [] = [] := by
  induction rows with
  | nil => rfl
  | cons r rows ih => exact ih

theorem foldl_addKeyRow {keyRows : List Document} (ht : t.IsTableRow)
    (hrows : ∀ r ∈ keyRows, r.IsKeyRow) :
    (keyRows.foldl addKeyRow t).field "name" = t.field "name" ∧
      (keyRows.foldl addKeyRow t).items "foreign_keys" = t.items "foreign_keys" ++ keyRows := by
  induction keyRows generalizing t with
  | nil => exact ⟨rfl, (List.append_nil _).symm⟩
  | cons r keyRows ih =>
    obtain ⟨hr, hrest⟩ := List.forall_mem_cons.1 hrows
    obtain ⟨hname, hitems⟩ := ih (ht.addKeyRow hr) hrest
    rw [List.foldl_cons]
    refine ⟨hname.trans name_addKeyRow, ?_⟩
    rw [hitems, items_addKeyRow ht, List.append_assoc, List.singleton_append]

theorem same_left {a b : Name} (h : a.same b) (n : Name) : a.same n = b.same n := by
  rw [same, same, same_iff.1 h]

/-- A table takes all rows of its own name, and none of any other. -/
theorem filter_filter_not_same (a name : Name) (rows : List (Name × Document)) :
    ((rows.filter fun r => !a.same r.1).filter fun r => r.1.same name) =
      if a.same name then [] else rows.filter fun r => r.1.same name := by
  rw [List.filter_filter]
  cases hsame : a.same name with
  | true =>
    rw [if_pos rfl, List.filter_eq_nil_iff]
    intro r _
    rw [same_left hsame, same_comm]
    simp
  | false =>
    rw [if_neg Bool.false_ne_true]
    refine List.filter_congr fun r _ => ?_
    cases hr : r.1.same name with
    | false => rfl
    | true =>
      rw [same_comm, same_left hr, same_comm, hsame]
      rfl

/-- Where no rows were listed, those of a name are listed for it if there is a table. -/
theorem listedFor_foldl_appendKeyRow (hts : ∀ t ∈ ts, t.IsTableRow)
    (hnone : ∀ t ∈ ts, t.items "foreign_keys" = []) (hrows : ∀ r ∈ rows, r.2.IsKeyRow)
    (name : Name) : listedFor name (rows.foldl appendKeyRow ts) =
      if ts.any fun t => (t.field "name").same name then
        (rows.filter fun r => r.1.same name).map Prod.snd else [] := by
  -- by induction on the tables, each with the rows that those in front of it have left
  induction ts generalizing rows with
  | nil =>
    rw [foldl_appendKeyRow_nil]
    rfl
  | cons t ts ih =>
    obtain ⟨ht, hts⟩ := List.forall_mem_cons.1 hts
    obtain ⟨htnone, hnone⟩ := List.forall_mem_cons.1 hnone
    have hleft : ∀ r ∈ rows.filter fun r => !(t.field "name").same r.1, r.2.IsKeyRow :=
      fun r hr => hrows r (List.mem_filter.1 hr).1
    have htaken : ∀ r ∈ (rows.filter fun r => (t.field "name").same r.1).map Prod.snd,
        r.IsKeyRow := List.forall_mem_map.2 fun r hr => hrows r (List.mem_filter.1 hr).1
    obtain ⟨hname, hitems⟩ := foldl_addKeyRow ht htaken
    have hrest := ih hts hnone hleft
    rw [filter_filter_not_same] at hrest
    rw [listedFor] at hrest ⊢
    rw [foldl_appendKeyRow_cons, List.filter_cons, hname, List.any_cons]
    cases hsame : (t.field "name").same name with
    | true =>
      have hkey : ∀ r : Name × Document, (t.field "name").same r.1 = r.1.same name := fun r => by
        rw [same_left hsame, same_comm]
      rw [hsame, if_pos rfl, List.map_nil, ite_self] at hrest
      rw [if_pos rfl, List.flatMap_cons, hitems, htnone, hrest, List.append_nil, List.nil_append]
      simp [hkey]
    | false =>
      rw [hsame, if_neg Bool.false_ne_true] at hrest
      rw [if_neg Bool.false_ne_true, hrest, Bool.false_or]

variable {relationship : Document}

theorem isKeyRow_keyRowOf (h : relationship.IsRelationship)
    (hleads : relationship.leadsFromColumn) : relationship.keyRowOf.IsKeyRow := by
  simp only [leadsFromColumn, Bool.and_eq_true] at hleads
  refine ⟨(h.optional "from_column" (by simp)).isText hleads.2, rfl, ?_⟩
  have htarget := isOptionalText_either (h.optional "to_table" (by simp))
    (h.optional "to" (by simp))
  have hcolumn := h.optional "to_column" (by simp)
  intro key hkey
  simp only [List.mem_cons, List.not_mem_nil, or_false] at hkey
  rcases hkey with rfl | rfl | rfl | rfl | rfl
  · exact isOptionalText_null
  · exact htarget
  · exact isOptionalText_null
  · exact isOptionalText_null
  · exact hcolumn

theorem leadsFrom_ofDocument (h : relationship.IsRelationship) (name : Name) :
    (Relationship.ofDocument relationship).leadsFrom name =
      (relationship.leadsFromColumn && (relationship.either "from_table" "from").same name) := by
  simp only [Relationship.leadsFrom, Relationship.ofDocument, asRecord_of_isRecord h.isRecord,
    leadsFromColumn, Answer.ok_bind]
  rw [show (pure _ : Answer Bool) = .ok _ from rfl]
  simp

end Document

namespace TableRow
variable {named named' : List (Name × KeyRow)}

theorem build_congr {row : TableRow}
    (h : (named.filter fun r => r.1.same row.title).map Prod.snd =
      (named'.filter fun r => r.1.same row.title).map Prod.snd) :
    row.build named = row.build named' := by
  rw [build, build]
  cases hname : row.name with
  | error fault => rfl
  | ok name =>
    rw [title_of_ok hname] at h
    rw [Report.ofAnswer_ok_bind, Report.ofAnswer_ok_bind]
    refine bind_congr fun rows => bind_congr fun key => ?_
    cases hkey : name.asKey with
    | error fault => rfl
    | ok _ =>
      obtain ⟨_, rfl⟩ := Document.asKey_eq_ok.1 hkey
      rw [Report.ofAnswer_ok_bind, Report.ofAnswer_ok_bind, h]

theorem mapM_build_congr {ts : List TableRow}
    (h : ∀ row ∈ ts, (named.filter fun r => r.1.same row.title).map Prod.snd =
      (named'.filter fun r => r.1.same row.title).map Prod.snd) :
    ts.mapM (build named) = ts.mapM (build named') := by
  induction ts with
  | nil => rfl
  | cons row ts ih =>
    obtain ⟨hrow, hts⟩ := List.forall_mem_cons.1 h
    rw [List.mapM_cons, List.mapM_cons, ih hts, build_congr hrow]

end TableRow

namespace Description
variable {d d' : Description}

/-- A description is read by its tables, apart from the rows that they list, and by the rows that
are found for the name of each of them. -/
theorem build_congr (hd : d.IsTyped) (hd' : d'.IsTyped)
    (htables : d.tables.map TableRow.withoutKeys = d'.tables.map TableRow.withoutKeys)
    (hrows : ∀ row ∈ d.tables, d.rowsFor row.title = d'.rowsFor row.title) :
    d.build = d'.build := by
  obtain ⟨named, hnamed, hown⟩ := hd.keyRows_gives
  obtain ⟨named', hnamed', hown'⟩ := hd'.keyRows_gives
  have hstripped : ∀ (ts : List TableRow) (rows : List (Name × KeyRow)),
      ts.mapM (TableRow.build rows) = (ts.map TableRow.withoutKeys).mapM (TableRow.build rows) :=
    fun ts rows => by
      rw [List.mapM_map]
      rfl
  have hread : d.tables.mapM (TableRow.build named) = d'.tables.mapM (TableRow.build named') := by
    rw [hstripped d'.tables, ← htables, ← hstripped]
    refine TableRow.mapM_build_congr fun row hrow => ?_
    rw [hown, hown', hrows row hrow]
  rw [build, build, hnamed, hnamed', Report.ofAnswer_ok_bind, Report.ofAnswer_ok_bind, hread]

end Description

namespace Document
variable {d : Document}

theorem items_relationships_withKeyRows : d.withKeyRows.items "relationships" = [] := by
  rw [withKeyRows, items, get?_setField_ne (by decide), get?_eraseField, if_pos rfl]

theorem items_tables_withKeyRows (h : d.isRecord) : d.withKeyRows.items "tables" =
    d.namedKeyRows.foldl appendKeyRow (d.items "tables") :=
  items_setField (by rwa [isRecord_eraseField])

theorem isKeyRow_namedKeyRows (h : d.IsDescription) : ∀ r ∈ d.namedKeyRows, r.2.IsKeyRow := by
  refine List.forall_mem_map.2 fun relationship hr => ?_
  obtain ⟨hr, hleads⟩ := List.mem_filter.1 hr
  exact isKeyRow_keyRowOf ((givenEntries_eq h.relationships).2 relationship hr) hleads

theorem IsDescription.withKeyRows (h : d.IsDescription) : d.withKeyRows.IsDescription := by
  refine ⟨?_, ?_, .inl ?_⟩
  · rw [Document.withKeyRows, isRecord_setField, isRecord_eraseField]
    exact h.isRecord
  · refine lists_setField (by rw [isRecord_eraseField]; exact h.isRecord) ?_
    exact isTableRow_foldl_appendKeyRow (fun t ht => h.tables.mem ht) (isKeyRow_namedKeyRows h)
  · rw [Document.withKeyRows, field_setField_ne (by decide), field, get?_eraseField, if_pos rfl]
    rfl

theorem IsTableRow.title_eq {t : Document} (h : t.IsTableRow) :
    (TableRow.ofDocument t).title = t.field "name" :=
  TableRow.title_of_ok (required_of_isSome (isSome_of_isText h.name))

theorem IsTableRow.keyRows_eq {t : Document} (h : t.IsTableRow) :
    (TableRow.ofDocument t).keyRows = (t.items "foreign_keys").map KeyRow.ofDocument :=
  TableRow.keyRows_of_ok h.foreignKeys_eq

/-- The foreign key rows for the tables of a name: those that such tables list, or those that stand
for relationships when no table lists any. -/
def keyRowsFor (d : Document) (name : Name) : List Document :=
  if ∀ t ∈ d.items "tables", t.items "foreign_keys" = [] then
    (d.namedKeyRows.filter fun r => r.1.same name).map Prod.snd
  else listedFor name (d.items "tables")

theorem isKeyRow_keyRowsFor (h : d.IsDescription) (name : Name) :
    ∀ r ∈ d.keyRowsFor name, r.IsKeyRow := by
  intro r hr
  rw [keyRowsFor] at hr
  split at hr
  · obtain ⟨named, hnamed, rfl⟩ := List.mem_map.1 hr
    exact isKeyRow_namedKeyRows h named (List.mem_filter.1 hnamed).1
  · obtain ⟨t, ht, hr⟩ := List.mem_flatMap.1 hr
    exact (h.tables.mem (List.mem_filter.1 ht).1).foreignKeys.mem hr

theorem rowsFrom_eq (h : d.IsDescription) {description : Description}
    (hd : Description.ofDocument d = .ok description) (name : Name) : description.rowsFrom name =
      ((d.namedKeyRows.filter fun r => r.1.same name).map Prod.snd).map KeyRow.ofDocument := by
  obtain rfl := Except.ok.inj (h.read_eq.symm.trans hd)
  have hleads : (d.items "relationships").filter
      ((fun r => r.leadsFrom name) ∘ Relationship.ofDocument) =
      (d.items "relationships").filter fun r =>
        (r.either "from_table" "from").same name && r.leadsFromColumn := by
    refine List.filter_congr fun r hr => ?_
    rw [Function.comp, leadsFrom_ofDocument ((givenEntries_eq h.relationships).2 r hr) name,
      Bool.and_comm]
  have hrelationships : Description.rowsFrom ⟨(d.items "tables").map TableRow.ofDocument,
      .ok ((d.items "relationships").map Relationship.ofDocument)⟩ name =
      (((d.items "relationships").map Relationship.ofDocument).filter fun r =>
        r.leadsFrom name).map Relationship.keyRow := rfl
  rw [hrelationships, List.filter_map, hleads, namedKeyRows, List.filter_map, List.filter_filter]
  simp only [List.map_map]
  rfl

/-- What a name finds is read from the rows that the fields say are found. -/
theorem rowsFor_eq (h : d.IsDescription) {description : Description}
    (hd : Description.ofDocument d = .ok description) (name : Name) :
    description.rowsFor name = (d.keyRowsFor name).map KeyRow.ofDocument := by
  have hfrom := rowsFrom_eq h hd name
  obtain rfl := Except.ok.inj (h.read_eq.symm.trans hd)
  have hlists : Description.listsNone ⟨(d.items "tables").map TableRow.ofDocument,
      .ok ((d.items "relationships").map Relationship.ofDocument)⟩ ↔
      ∀ t ∈ d.items "tables", t.items "foreign_keys" = [] := by
    rw [Description.listsNone, List.all_eq_true, List.forall_mem_map]
    refine forall₂_congr fun t ht => ?_
    rw [(h.tables.mem ht).keyRows_eq, List.isEmpty_iff, List.map_eq_nil_iff]
  rw [Description.rowsFor, keyRowsFor]
  split
  · rename_i hnone
    rw [if_pos (hlists.1 hnone), hfrom]
  · rename_i hsome
    rw [if_neg fun hnone => hsome (hlists.2 hnone)]
    exact Description.rowsNamed_eq_listedFor (fun t ht => (h.tables.mem ht).title_eq)
      (fun t ht => (h.tables.mem ht).keyRows_eq) name

/-- Without relationships, a name finds the rows of its tables. -/
theorem keyRowsFor_of_items_eq_nil (hnone : d.items "relationships" = []) (name : Name) :
    d.keyRowsFor name = listedFor name (d.items "tables") := by
  rw [keyRowsFor]
  split
  · rename_i hlists
    rw [namedKeyRows, hnone, listedFor]
    exact (List.flatMap_eq_nil_iff.2 fun t ht => hlists t (List.mem_filter.1 ht).1).symm
  · rfl

end Document

namespace Schema

/-- Where no table lists foreign key rows, relationships are read like such rows of the tables that
they lead from. -/
theorem ofDocument_withKeyRows {d : Document} (h : d.IsDescription)
    (hnone : ∀ t ∈ d.items "tables", t.items "foreign_keys" = []) :
    ofDocument d = ofDocument d.withKeyRows := by
  rw [ofDocument, ofDocument, h.read_eq, h.withKeyRows.read_eq, Report.ofAnswer_ok_bind,
    Report.ofAnswer_ok_bind]
  refine Description.build_congr (h.isTyped h.read_eq)
    (h.withKeyRows.isTyped h.withKeyRows.read_eq) ?_ (List.forall_mem_map.2 fun t ht => ?_)
  · rw [List.map_map, List.map_map, Document.items_tables_withKeyRows h.isRecord]
    exact Document.withoutKeys_foldl_appendKeyRow.symm
  · have hlisted := Document.listedFor_foldl_appendKeyRow (fun t ht => h.tables.mem ht) hnone
      (Document.isKeyRow_namedKeyRows h) (t.field "name")
    have hnamed : (d.items "tables").any fun u => (u.field "name").same (t.field "name") :=
      List.any_eq_true.2 ⟨t, ht, Document.same_self _⟩
    rw [if_pos hnamed] at hlisted
    rw [(h.tables.mem ht).title_eq, Document.rowsFor_eq h h.read_eq,
      Document.rowsFor_eq h.withKeyRows h.withKeyRows.read_eq,
      Document.keyRowsFor_of_items_eq_nil Document.items_relationships_withKeyRows,
      Document.items_tables_withKeyRows h.isRecord, hlisted, Document.keyRowsFor, if_pos hnone]

end Schema

def Document.relationship (table column target : String) : Document :=
  .record [("from_table", table), ("from_column", column), ("to", target)]

/-- A table with relationships: from one of its columns, from a column that it does not have, and
from a table that is not there. -/
def Document.related : Document :=
  .record [("tables", .list [.ordersIn "shop" []]),
    ("relationships", .list [.relationship "orders" "parent" "orders",
      .relationship "people" "id" "orders", .relationship "orders" "customer" "customers"])]

namespace Schema

/-- The table gets one foreign key and one warning either way. -/
theorem ofDocument_withKeyRows_related : ofDocument .related = ofDocument (.withKeyRows .related) ∧
    (ofDocument (.withKeyRows .related)).warnings.length = 1 ∧
    (ofDocument .related).result.toOption.any fun schema => schema.foreignKeys.length = 1 := by
  refine ⟨ofDocument_withKeyRows ?_ ?_, ?_, ?_⟩ <;> decide

end Schema
end EntityMapping
