import EntityMapping.Proofs.Description.Described
import EntityMapping.Proofs.Relational.Declaration

/-! # Foreign keys come from the rows of all tables of a name

Every table of a schema is read from one table of the description. Its foreign keys are those of the
constraints that are only over columns which it has. But the rows are gathered by the bare name of
the table, so that tables of one name in different schemas or catalogs get the keys of each other.
A table has the keys of its own rows if no other table of its name lists any.
-/
namespace EntityMapping
open Document

/-- No other table of the same name lists foreign keys. -/
def Document.ListsAlone (d t : Document) : Prop :=
  ∃ before after, d.items "tables" = before ++ t :: after ∧ ∀ other ∈ before ++ after,
    (other.field "name").same (t.field "name") → other.items "foreign_keys" = []

theorem Document.ListsAlone.listedFor_eq {d t : Document} (h : d.ListsAlone t) :
    listedFor (t.field "name") (d.items "tables") = t.items "foreign_keys" := by
  obtain ⟨before, after, htables, hother⟩ := h
  have hnone : ∀ ts ⊆ before ++ after, listedFor (t.field "name") ts = [] := by
    intro ts hts
    rw [listedFor, List.flatMap_eq_nil_iff]
    intro other hmem
    obtain ⟨hmem, hsame⟩ := List.mem_filter.1 hmem
    exact hother other (hts hmem) hsame
  have hbefore := hnone before (List.subset_append_left _ _)
  have hafter := hnone after (List.subset_append_right _ _)
  rw [listedFor] at hbefore hafter
  rw [listedFor, htables, List.filter_append, List.flatMap_append, hbefore, List.nil_append,
    List.filter_cons, if_pos (same_self _), List.flatMap_cons, hafter, List.append_nil]

namespace Column
variable {columns : List Column} {names : List Name}

theorem find?_eq_none_iff_not_exists {name : Name} :
    find? columns name = none ↔ ¬ ∃ c ∈ columns, c.name.same name := by
  rw [← find?_isSome_iff, Option.not_isSome_iff_eq_none]

theorem areCalled_filterMap (h : (names.filter fun n => (find? columns n).isNone) = []) :
    AreCalled columns names (names.filterMap (find? columns)) := by
  induction names with
  | nil => exact .nil
  | cons n names ih =>
    cases hn : find? columns n with
    | none => simp [hn] at h
    | some c =>
      rw [List.filter_cons_of_neg (by simp [hn])] at h
      rw [List.filterMap_cons_some hn]
      exact .cons (mem_of_find? hn) (ih h)

theorem isOver_of_areCalled {rows : List Document} {cs : List Column}
    (h : AreCalled columns (rows.map (field "column")) cs) : ∀ row ∈ rows, row.IsOver columns := by
  intro row hrow
  obtain ⟨c, _, hc⟩ := List.Forall₂.exists_right h (List.mem_map_of_mem hrow)
  exact ⟨c, hc⟩

end Column

namespace KeyGroup
variable {id : TableId} {columns : List Column} {g : Cluster Document}

/-- The columns of some rows are found, up to the first row that is over none of them. -/
theorem columnsIn_eq_ok {rows : List Document} {x : Except Name (List Column)}
    (h : columnsIn columns (rows.map KeyRow.ofDocument) = .ok x) :
    (∃ cs, x = .ok cs ∧ Column.AreCalled columns (rows.map (field "column")) cs) ∨
      ∃ row, rows.find? (fun row => ¬ row.IsOver columns) = some row ∧
        x = .error (row.field "column") := by
  induction rows generalizing x with
  | nil => exact .inl ⟨[], (Except.ok.inj h).symm, .nil⟩
  | cons row rows ih =>
    obtain ⟨name, hname, h⟩ := Answer.bind_eq_ok.1 h
    obtain rfl := KeyRow.column_eq_ok hname
    cases hfind : Column.find? columns (row.field "column") with
    | none =>
      simp only [hfind] at h
      obtain rfl := Answer.pure_eq_ok.1 h
      have hstray : ¬ row.IsOver columns := Column.find?_eq_none_iff_not_exists.1 hfind
      exact .inr ⟨row, List.find?_cons_of_pos (by simpa using hstray), rfl⟩
    | some c =>
      simp only [hfind] at h
      obtain ⟨y, hy, h⟩ := Answer.bind_eq_ok.1 h
      obtain rfl := Answer.pure_eq_ok.1 h
      have hover : row.IsOver columns := ⟨c, Column.mem_of_find? hfind⟩
      rcases ih hy with ⟨cs, rfl, hcs⟩ | ⟨stray, hstray, rfl⟩
      · exact .inl ⟨c :: cs, rfl, .cons (Column.mem_of_find? hfind) hcs⟩
      · refine .inr ⟨stray, ?_, rfl⟩
        rw [List.find?_cons_of_neg (by simpa using hover), hstray]

theorem targetColumns_read (g : Cluster Document) : (read g).targetColumns =
    if ∀ row ∈ g.entries, (row.field "references_column").truthy then
      g.entries.map (field "references_column") else [] := by
  rw [targetColumns, rows_read, List.map_map]
  simp only [List.all_map, List.all_eq_true]
  rfl

/-- Rows over columns of the table become their foreign key, others nothing. -/
theorem build?_eq_ok (g : Cluster Document) (o : Option ForeignKey)
    (h : ((read g).build? id columns).result = .ok o) :
    (¬ ∀ row ∈ g.entries, row.IsOver columns) ∧ o = none ∨
      (∀ row ∈ g.entries, row.IsOver columns) ∧ ∃ f, o = some f ∧ f.IsReadFrom id columns g := by
  obtain ⟨x, hx, h⟩ := Report.bind_eq_ok.1 h
  rw [Report.ofAnswer_eq_ok, rows_read] at hx
  rcases columnsIn_eq_ok hx with ⟨cs, rfl, hcs⟩ | ⟨row, hrow, rfl⟩
  · obtain ⟨declared, hdeclared, h⟩ := Report.bind_eq_ok.1 h
    obtain ⟨f, hf, h⟩ := Report.bind_eq_ok.1 h
    obtain rfl := Report.pure_eq_ok.1 h
    refine .inr ⟨Column.isOver_of_areCalled hcs, f, rfl, ?_⟩
    simp only [Report.ofAnswer_eq_ok, declare, Answer.bind_eq_ok, Answer.pure_eq_ok] at hdeclared
    obtain ⟨target, htarget, rfl⟩ := hdeclared
    obtain ⟨_, rfl⟩ := required_eq_ok htarget
    have hdeclaration := ForeignKeyDecl.build_eq_ok_iff.1 (Report.ofDefinition_eq_ok.1 hf)
    rw [ForeignKey.declaration, ForeignKeyDecl.mk.injEq] at hdeclaration
    obtain ⟨htable, htarget, hcolumns, htargets, hname⟩ := hdeclaration
    exact ⟨htable, htarget, hcolumns ▸ hcs, htargets.trans (targetColumns_read g), hname⟩
  · obtain ⟨_, _, h⟩ := Report.bind_eq_ok.1 h
    obtain rfl := Report.pure_eq_ok.1 h
    refine .inl ⟨fun hall => ?_, rfl⟩
    have hstray : ¬ row.IsOver columns := by simpa using List.find?_some hrow
    exact hstray (hall row (List.mem_of_find?_eq_some hrow))

end KeyGroup

theorem Answer.mapM_asKey_eq_ok {ds keys : List Document} (h : ds.mapM asKey = .ok keys) :
    keys = ds := by
  have hkeys := (Answer.forall₂_of_mapM h).map_eq (f := id) fun _ _ hkey =>
    (asKey_eq_ok.1 hkey).2.symm
  rw [← hkeys, List.map_id]

namespace TableRow

def title (row : TableRow) : Name := row.name.toOption.getD .null

def keyRows (row : TableRow) : List KeyRow := row.foreignKeys.toOption.getD []

section
variable {row : TableRow}

theorem title_of_ok {name : Name} (h : row.name = .ok name) : row.title = name := by
  rw [title, h]
  rfl

theorem keyRows_of_ok {rows : List KeyRow} (h : row.foreignKeys = .ok rows) :
    row.keyRows = rows := by
  rw [keyRows, h]
  rfl

end

section
variable {t : Document} {table : Table} {named : List (Name × KeyRow)}

theorem buildKey?_eq_ok {name : Name} {key : Option PrimaryKey}
    (h : ((ofDocument t).buildKey? name ((t.items "columns").map columnRow)).result = .ok key) :
    Column.AreCalled t.describedColumns t.describedKey ((key.map PrimaryKey.columns).getD []) ∧
      ∀ k ∈ key, k.name = .null := by
  have hcolumns : ((t.items "columns").map columnRow).map ColumnRow.column = t.describedColumns :=
    List.map_map
  obtain ⟨names, hnames, h⟩ := Report.bind_eq_ok.1 h
  rw [Report.ofAnswer_eq_ok, keyNames_eq] at hnames
  obtain rfl := Answer.mapM_asKey_eq_ok hnames
  dsimp only at h
  rw [hcolumns] at h
  split at h
  · rename_i hnone
    obtain rfl := Report.pure_eq_ok.1 h
    rw [List.isEmpty_iff.1 hnone]
    exact ⟨.nil, nofun⟩
  · split at h
    · rename_i hknown
      obtain ⟨k, hk, h⟩ := Report.bind_eq_ok.1 h
      obtain rfl := Report.pure_eq_ok.1 h
      have hdeclaration := KeyDecl.build_eq_ok_iff.1 (Report.ofDefinition_eq_ok.1 hk)
      rw [PrimaryKey.declaration, KeyDecl.mk.injEq] at hdeclaration
      obtain ⟨hkey, hname⟩ := hdeclaration
      have hcalled := Column.areCalled_filterMap (List.isEmpty_iff.1 hknown)
      refine ⟨?_, fun k' hk' => ?_⟩
      · rw [Option.map_some, Option.getD_some, hkey]
        exact hcalled
      · obtain rfl := Option.some.inj hk'
        exact hname
    · cases h

theorem named_of_build (h : ((ofDocument t).build named).result = .ok table) :
    (ofDocument t).name = .ok (t.field "name") ∧ t.isRecord ∧ ∃ rows,
      (((named.filter fun r => r.1.same (t.field "name")).map Prod.snd).mapM KeyRow.named) =
        .ok rows := by
  obtain ⟨name, hname, h⟩ := Report.bind_eq_ok.1 h
  obtain ⟨_, _, h⟩ := Report.bind_eq_ok.1 h
  obtain ⟨_, _, h⟩ := Report.bind_eq_ok.1 h
  obtain ⟨name', hname', h⟩ := Report.bind_eq_ok.1 h
  obtain ⟨rows, hrows, _⟩ := Report.bind_eq_ok.1 h
  rw [Report.ofAnswer_eq_ok] at hname hname' hrows
  obtain ⟨_, rfl⟩ := asKey_eq_ok.1 hname'
  obtain ⟨hrecord, rfl⟩ := required_eq_ok hname
  exact ⟨hname, hrecord, rows, hrows⟩

theorem isReadFrom_of_build {rows : List Document}
    (h : ((ofDocument t).build named).result = .ok table)
    (hrows : (named.filter fun r => r.1.same (t.field "name")).map Prod.snd =
      rows.map KeyRow.ofDocument) : table.IsReadFrom t rows := by
  obtain ⟨_, hname, h₁⟩ := Report.bind_eq_ok.1 h
  obtain ⟨_, hcolumns, h₂⟩ := Report.bind_eq_ok.1 h₁
  obtain ⟨key, hkey, h₃⟩ := Report.bind_eq_ok.1 h₂
  obtain ⟨_, hname', h₄⟩ := Report.bind_eq_ok.1 h₃
  obtain ⟨read, hread, h₅⟩ := Report.bind_eq_ok.1 h₄
  obtain ⟨fs, hfs, htable⟩ := Report.bind_eq_ok.1 h₅
  rw [Report.ofAnswer_eq_ok] at hname hcolumns hname' hread
  obtain ⟨_, rfl⟩ := asKey_eq_ok.1 hname'
  obtain ⟨_, rfl⟩ := required_eq_ok hname
  obtain rfl := columns_eq_ok hcolumns
  obtain ⟨hid, hcols, hprimary, hforeign, hcomment⟩ :=
    Table.build_eq_ok_iff.1 (Report.ofDefinition_eq_ok.1 htable)
  obtain ⟨hcalled, hunnamed⟩ := buildKey?_eq_ok hkey
  have hdescribed : table.columns = t.describedColumns := by
    rw [hcols, List.map_map]
    rfl
  rw [hrows] at hread
  rw [KeyGroup.ofRows_of_mapM hread, Report.collect_map] at hfs
  refine ⟨hid, hdescribed, ?_, hprimary ▸ hunnamed, ?_, hcomment⟩
  · rw [Table.keyColumns, hprimary, hdescribed]
    exact hcalled
  · rw [hforeign, hid, hcols]
    exact Report.forall₂_of_collect KeyGroup.build?_eq_ok hfs

end

theorem declaredKeys_eq_ok {ts : List TableRow} {named : List (Name × KeyRow)}
    (h : declaredKeys ts = .ok named) :
    named = ts.flatMap fun row => row.keyRows.map fun r => (row.title, r) := by
  induction ts generalizing named with
  | nil => exact (Except.ok.inj h).symm
  | cons row ts ih =>
    obtain ⟨rows, hrows, h⟩ := Answer.bind_eq_ok.1 h
    obtain ⟨own, hown, h⟩ := Answer.bind_eq_ok.1 h
    obtain ⟨others, hothers, h⟩ := Answer.bind_eq_ok.1 h
    obtain rfl := Answer.pure_eq_ok.1 h
    have hkeys := keyRows_of_ok hrows
    have hmap : rows.map (fun r => (row.title, r)) = own := by
      refine (Answer.forall₂_of_mapM hown).map_eq fun r x hx => ?_
      simp only [Answer.bind_eq_ok, asKey_eq_ok, Answer.pure_eq_ok] at hx
      obtain ⟨name, hname, _, ⟨_, rfl⟩, rfl⟩ := hx
      rw [title, hname]
      rfl
    rw [List.flatMap_cons, ← ih hothers, hkeys, hmap]

theorem foreignKeys_of_declaredKeys {ts : List TableRow} {named : List (Name × KeyRow)}
    (h : declaredKeys ts = .ok named) : ∀ row ∈ ts, ∃ rows, row.foreignKeys = .ok rows := by
  induction ts generalizing named with
  | nil => exact List.forall_mem_nil _
  | cons row ts ih =>
    obtain ⟨rows, hrows, h⟩ := Answer.bind_eq_ok.1 h
    obtain ⟨_, _, h⟩ := Answer.bind_eq_ok.1 h
    obtain ⟨others, hothers, _⟩ := Answer.bind_eq_ok.1 h
    exact List.forall_mem_cons.2 ⟨⟨rows, hrows⟩, ih hothers⟩

end TableRow

namespace Description
variable {d : Description}

def rowsNamed (d : Description) (name : Name) : List KeyRow :=
  (d.tables.filter fun row => row.title.same name).flatMap TableRow.keyRows

theorem rowsNamed_eq (d : Description) (name : Name) : d.rowsNamed name =
    ((d.tables.flatMap fun row => row.keyRows.map fun r => (row.title, r)).filter
      fun r => r.1.same name).map Prod.snd := by
  rw [rowsNamed]
  induction d.tables with
  | nil => rfl
  | cons row rows ih =>
    rw [List.flatMap_cons, List.filter_append, List.map_append, ← ih, List.filter_cons]
    cases hsame : row.title.same name <;> simp [List.filter_map, Function.comp_def, hsame]

/-- Where a table lists foreign keys, the relationships do not count. -/
theorem declaredKeys_of_keyRows {named : List (Name × KeyRow)} (h : d.keyRows = .ok named)
    {row : TableRow} (hrow : row ∈ d.tables)
    (hlisted : ∀ rows, row.foreignKeys = .ok rows → rows ≠ []) :
    TableRow.declaredKeys d.tables = .ok named := by
  obtain ⟨declared, hdeclared, h⟩ := Answer.bind_eq_ok.1 h
  obtain ⟨rows, hrows⟩ := TableRow.foreignKeys_of_declaredKeys hdeclared row hrow
  rw [if_neg] at h
  · rw [hdeclared, Answer.pure_eq_ok.1 h]
  · rw [TableRow.declaredKeys_eq_ok hdeclared, List.isEmpty_iff, List.flatMap_eq_nil_iff]
    intro hnone
    have hempty := List.map_eq_nil_iff.1 (hnone row hrow)
    rw [TableRow.keyRows_of_ok hrows] at hempty
    exact hlisted rows hrows hempty

/-- Of tables that are read by their fields, those of a name list the rows that the fields list. -/
theorem rowsNamed_eq_listedFor {ts : List Document} {relationships : Answer (List Relationship)}
    (htitle : ∀ t ∈ ts, (TableRow.ofDocument t).title = t.field "name")
    (hkeys : ∀ t ∈ ts, (TableRow.ofDocument t).keyRows =
      (t.items "foreign_keys").map KeyRow.ofDocument) (name : Name) :
    rowsNamed ⟨ts.map TableRow.ofDocument, relationships⟩ name =
      (listedFor name ts).map KeyRow.ofDocument := by
  have hnamed : ts.filter ((fun row => row.title.same name) ∘ TableRow.ofDocument) =
      ts.filter fun t => (t.field "name").same name := by
    refine List.filter_congr fun t ht => ?_
    rw [Function.comp, htitle t ht]
  rw [rowsNamed, listedFor, List.map_flatMap, List.filter_map, List.flatMap_map, hnamed]
  exact List.flatMap_congr fun t ht => hkeys t (List.mem_filter.1 ht).1

end Description

namespace TableRow
variable {t : Document} {table : Table} {named : List (Name × KeyRow)}

theorem foreignKeys_eq_ok {rows : List KeyRow} (h : (ofDocument t).foreignKeys = .ok rows) :
    ∃ ds, t.entriesAt "foreign_keys" = .ok ds ∧ rows = ds.map KeyRow.ofDocument := by
  obtain ⟨_, hrecord, hread⟩ := Answer.bind_eq_ok.1 h
  obtain ⟨_, rfl⟩ := asRecord_eq_ok hrecord
  obtain ⟨ds, hds, hrows⟩ := Answer.bind_eq_ok.1 hread
  exact ⟨ds, hds, (Answer.pure_eq_ok.1 hrows).symm⟩

/-- A table that is read has read its own rows, so that they are those that its field lists. -/
theorem keyRows_of_build {ts : List Document} (ht : t ∈ ts)
    (hnamed : declaredKeys (ts.map ofDocument) = .ok named)
    (h : ((ofDocument t).build named).result = .ok table) :
    (ofDocument t).keyRows = (t.items "foreign_keys").map KeyRow.ofDocument := by
  obtain ⟨hname, _, read, hread⟩ := named_of_build h
  obtain ⟨rows, hrows⟩ := foreignKeys_of_declaredKeys hnamed _ (List.mem_map_of_mem ht)
  obtain ⟨ds, hds, rfl⟩ := foreignKeys_eq_ok hrows
  have hown : ∀ r ∈ ds.map KeyRow.ofDocument,
      r ∈ (named.filter fun r => r.1.same (t.field "name")).map Prod.snd := by
    intro r hr
    refine List.mem_map_of_mem (f := Prod.snd) (a := (t.field "name", r)) ?_
    refine List.mem_filter.2 ⟨?_, same_self _⟩
    rw [declaredKeys_eq_ok hnamed, List.mem_flatMap]
    refine ⟨_, List.mem_map_of_mem ht, ?_⟩
    rw [keyRows_of_ok hrows, title_of_ok hname]
    exact List.mem_map_of_mem hr
  have hrecords : ∀ x ∈ ds, x.isRecord := by
    intro x hx
    obtain ⟨_, _, hx⟩ :=
      (Answer.forall₂_of_mapM hread).exists_right (hown _ (List.mem_map_of_mem hx))
    exact (KeyRow.named_eq_ok hx).1
  rw [keyRows_of_ok hrows, entriesAt_eq_items hds hrecords]

end TableRow

theorem Description.ofDocument_eq_ok {d : Document} {description : Description}
    (h : ofDocument d = .ok description) : ∃ ts, d.entriesAt "tables" = .ok ts ∧
      description.tables = ts.map TableRow.ofDocument := by
  obtain ⟨_, hrecord, hread⟩ := Answer.bind_eq_ok.1 h
  obtain ⟨_, rfl⟩ := asRecord_eq_ok hrecord
  obtain ⟨ts, hts, hdescription⟩ := Answer.bind_eq_ok.1 hread
  obtain rfl := Answer.pure_eq_ok.1 hdescription
  exact ⟨ts, hts, rfl⟩

namespace Schema

/-- The tables that were read are those that the field lists. -/
theorem eq_items_of_build {d : Document} {ts : List Document} {tables : List Table}
    {named : List (Name × KeyRow)} (hts : d.entriesAt "tables" = .ok ts)
    (hread : List.Forall₂ (fun t table =>
      ((TableRow.ofDocument t).build named).result = .ok table) ts tables) :
    ts = d.items "tables" := by
  refine entriesAt_eq_items hts fun t ht => ?_
  obtain ⟨_, _, hbuilt⟩ := hread.exists_right ht
  exact (TableRow.named_of_build hbuilt).2.1

/-- Where a table lists foreign keys, the tables of a schema are read one by one with the rows that
tables of their names list. -/
theorem isReadFrom_listedFor {d : Document} {schema : Schema}
    (h : (ofDocument d).result = .ok schema)
    (hlisted : ∃ t ∈ d.items "tables", t.items "foreign_keys" ≠ []) :
    List.Forall₂ (fun t table =>
      table.IsReadFrom t (listedFor (t.field "name") (d.items "tables")))
      (d.items "tables") schema.tables := by
  obtain ⟨description, hdescription, hbuild⟩ := Report.bind_eq_ok.1 h
  obtain ⟨ts, hts, htables⟩ :=
    Description.ofDocument_eq_ok (Report.ofAnswer_eq_ok.1 hdescription)
  obtain ⟨named, hnamed, hrest⟩ := Report.bind_eq_ok.1 hbuild
  obtain ⟨tables, hmapped, hschema⟩ := Report.bind_eq_ok.1 hrest
  rw [Report.ofAnswer_eq_ok] at hnamed
  rw [htables, List.mapM_map] at hmapped
  rw [Schema.build_eq_ok_iff.1 (Report.ofDefinition_eq_ok.1 hschema)]
  have hread := Report.forall₂_of_mapM hmapped
  obtain rfl := eq_items_of_build hts hread
  have hdeclared : TableRow.declaredKeys ((d.items "tables").map TableRow.ofDocument) =
      .ok named := by
    rw [← htables]
    obtain ⟨t, ht, hkeys⟩ := hlisted
    have hrow : TableRow.ofDocument t ∈ description.tables := htables ▸ List.mem_map_of_mem ht
    refine Description.declaredKeys_of_keyRows hnamed hrow fun rows hrows hnone => ?_
    obtain ⟨ds, hds, rfl⟩ := TableRow.foreignKeys_eq_ok hrows
    obtain rfl := Except.ok.inj ((entriesAt_of_items_ne_nil hkeys).symm.trans hds)
    exact hkeys (List.map_eq_nil_iff.1 hnone)
  have hrows : ∀ name, Description.rowsNamed
      ⟨(d.items "tables").map TableRow.ofDocument, description.relationships⟩ name =
      (listedFor name (d.items "tables")).map KeyRow.ofDocument := by
    refine Description.rowsNamed_eq_listedFor (fun t ht => ?_) fun t ht => ?_
    · obtain ⟨_, _, hbuilt⟩ := hread.exists_right ht
      exact TableRow.title_of_ok (TableRow.named_of_build hbuilt).1
    · obtain ⟨_, _, hbuilt⟩ := hread.exists_right ht
      exact TableRow.keyRows_of_build ht hdeclared hbuilt
  refine hread.imp fun t table hbuilt => TableRow.isReadFrom_of_build hbuilt ?_
  rw [← hrows, Description.rowsNamed_eq, TableRow.declaredKeys_eq_ok hdeclared]

/-- Every table of a schema has the keys of the rows that tables of its name list, and the keys of
its own rows if it lists them alone. -/
theorem isReadFrom_of_ofDocument {d : Document} {schema : Schema}
    (h : (ofDocument d).result = .ok schema)
    (hlisted : ∃ t ∈ d.items "tables", t.items "foreign_keys" ≠ []) :
    List.Forall₂ (fun t table =>
      table.IsReadFrom t (listedFor (t.field "name") (d.items "tables")) ∧
        (d.ListsAlone t → table.IsReadFrom t (t.items "foreign_keys")))
      (d.items "tables") schema.tables := by
  refine (isReadFrom_listedFor h hlisted).imp fun t table ht => ⟨ht, fun halone => ?_⟩
  rwa [halone.listedFor_eq] at ht

end Schema

def Document.ordersIn (schema : String) (keyRows : List Document) : Document :=
  .record [("name", "orders"), ("schema", schema),
    ("columns", .list [.record [("name", "id")], .record [("name", "parent")]]),
    ("foreign_keys", .list keyRows)]

/-- Tables of one name in two schemas, of which one lists a foreign key. -/
def Document.namesakes : Document :=
  .record [("tables", .list [
    .ordersIn "shop" [.record [("column", "parent"), ("references_table", "orders")]],
    .ordersIn "former" []])]

namespace Schema

/-- The table that lists the foreign key lists it alone. -/
theorem isReadFrom_namesakes : ∃ schema t table,
    (ofDocument .namesakes).result = .ok schema ∧ t ∈ namesakes.items "tables" ∧
    t.items "foreign_keys" ≠ [] ∧ namesakes.ListsAlone t ∧ table ∈ schema.tables ∧
    table.IsReadFrom t (listedFor (t.field "name") (namesakes.items "tables")) ∧
    table.IsReadFrom t (t.items "foreign_keys") ∧ table.foreignKeys.length = 1 := by
  have hrun : (ofDocument .namesakes).result.toOption.any fun schema =>
      ∀ table ∈ schema.tables, table.foreignKeys.length = 1 := by decide
  obtain ⟨schema, h, hkeys⟩ := exists_ok_of_toOption_any hrun
  obtain ⟨t, ht, hlists, halone⟩ : ∃ t ∈ namesakes.items "tables",
      t.items "foreign_keys" ≠ [] ∧ namesakes.ListsAlone t := by
    refine ⟨_, List.mem_cons_self, by decide, [], _, rfl, fun other hother _ => ?_⟩
    rw [List.mem_singleton.1 hother]
    rfl
  obtain ⟨table, htable, hpooled, hown⟩ :=
    (isReadFrom_of_ofDocument h ⟨t, ht, hlists⟩).exists_right ht
  exact ⟨schema, t, table, h, ht, hlists, halone, htable, hpooled, hown halone,
    of_decide_eq_true hkeys table htable⟩

/-- The table that lists no foreign keys gets that of its namesake. -/
theorem not_isReadFrom_own_namesakes : ∃ schema,
    (ofDocument .namesakes).result = .ok schema ∧
    (∃ t ∈ namesakes.items "tables", t.items "foreign_keys" ≠ []) ∧
    ¬ List.Forall₂ (fun t table => table.IsReadFrom t (t.items "foreign_keys"))
      (namesakes.items "tables") schema.tables := by
  have hrun : (ofDocument .namesakes).result.toOption.any fun schema =>
      ∀ table ∈ schema.tables, table.foreignKeys ≠ [] := by decide
  obtain ⟨schema, h, hkeys⟩ := exists_ok_of_toOption_any hrun
  refine ⟨schema, h, ⟨_, List.mem_cons_self, by decide⟩, fun hall => ?_⟩
  obtain ⟨table, htable, hread⟩ := hall.exists_right (List.mem_cons_of_mem _ List.mem_cons_self)
  exact of_decide_eq_true hkeys table htable hread.foreignKeys_eq_nil

end Schema
end EntityMapping
