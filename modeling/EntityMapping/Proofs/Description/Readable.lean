import EntityMapping.Proofs.Description.Relationships

/-! # Which descriptions make a schema

A description whose fields have their kinds makes a schema unless it breaks one of four rules. The
tables and their columns keep their order, and a constraint over a column that its table does not
have is left out with one warning.
-/
namespace EntityMapping
open Document

namespace Document

def missingKeyColumns (t : Document) : List Name :=
  (t.items "primary_key").filter fun n => n ∉ Column.names t.describedColumns

inductive TableBreaks (t : Document) : DefinitionError → Prop
  | unknownKeyColumns (h : t.missingKeyColumns ≠ []) :
    t.TableBreaks (.unknownKeyColumns (t.field "name") t.missingKeyColumns)
  | repeatedColumn {name : Name} (h : (Column.names t.describedColumns).Duplicate name) :
    t.TableBreaks (.repeatedColumn name t.describedId)

/-- The rules that a description breaks. -/
inductive Breaks (d : Document) : DefinitionError → Prop
  | table {t : Document} {e : DefinitionError} (ht : t ∈ d.items "tables") (h : t.TableBreaks e) :
    d.Breaks e
  | repeatedTable {id : TableId} (h : ((d.items "tables").map describedId).Duplicate id) :
    d.Breaks (.repeatedTable id)
  | unknownTarget {t other : Document} {g : Cluster Document} {f : ForeignKey} {name : Name}
    (ht : t ∈ d.items "tables") (hg : g ∈ constraints (d.keyRowsFor (t.field "name")))
    (hf : f.IsReadFrom t.describedId t.describedColumns g) (hother : other ∈ d.items "tables")
    (htarget : other.describedId = f.target) (hname : name ∈ f.targetColumns)
    (h : name ∉ Column.names other.describedColumns) : d.Breaks (.unknownTarget f name)

/-- The tables are those that the description lists, with the rows that are found for them. -/
def IsReadInto (d : Document) (tables : List Table) : Prop :=
  List.Forall₂ (fun t table => table.IsReadFrom t (d.keyRowsFor (t.field "name")))
    (d.items "tables") tables

/-- The warning that a constraint is left out, which tells the first of its columns that the table
does not have. -/
def dropWarning? (id : TableId) (columns : List Column) (g : Cluster Document) : Option Warning :=
  (g.entries.find? fun row => ¬ row.IsOver columns).map fun row =>
    .unknownLocalColumn (g.first.givenAt "name") id (row.field "column")

def tableWarnings (t : Document) (rows : List Document) : List Warning :=
  (constraints rows).filterMap (dropWarning? t.describedId t.describedColumns)

def dropWarnings (d : Document) : List Warning :=
  (d.items "tables").flatMap fun t => t.tableWarnings (d.keyRowsFor (t.field "name"))

theorem dropWarning?_eq_none {id : TableId} {columns : List Column} {g : Cluster Document}
    (h : ∀ row ∈ g.entries, row.IsOver columns) : dropWarning? id columns g = none := by
  rw [dropWarning?, Option.map_eq_none_iff, List.find?_eq_none]
  intro row hrow
  simpa using h row hrow

end Document

namespace ForeignKey.IsReadFrom
variable {id : TableId} {columns : List Column} {g : Cluster Document} {f f' : ForeignKey}

theorem mem_columns (h : f.IsReadFrom id columns g) : ∀ c ∈ f.columns, c ∈ columns := by
  intro c hc
  obtain ⟨_, _, hmem, _⟩ := List.Forall₂.exists_left h.columns_called hc
  exact hmem

theorem target_isPlain (h : f.IsReadFrom id columns g) (hid : id.IsTyped)
    (hrows : ∀ r ∈ g.entries, r.IsKeyRow) : f.target.isPlain := by
  have hfirst := (hrows g.first List.mem_cons_self).isTyped
  have hname := (hrows g.first List.mem_cons_self).optional "references_table" (by simp)
  have hschema : ((g.first.get? "references_schema").getD id.schema).IsOptionalText := by
    cases hgiven : g.first.get? "references_schema" with
    | none => exact hid.2.1
    | some n => exact hfirst.targetSchema n hgiven
  have hcatalog : ((g.first.get? "references_catalog").getD id.catalog).IsOptionalText := by
    cases hgiven : g.first.get? "references_catalog" with
    | none => exact hid.2.2
    | some n => exact hfirst.targetCatalog n hgiven
  rw [h.target_eq]
  simp [TableId.isPlain, hname.isPlain, hschema.isPlain, hcatalog.isPlain]

theorem targetColumns_isText (h : f.IsReadFrom id columns g) (hrows : ∀ r ∈ g.entries, r.IsKeyRow) :
    ∀ n ∈ f.targetColumns, n.IsText := by
  intro n hn
  rw [h.targets_eq] at hn
  split at hn
  · rename_i htruthy
    obtain ⟨r, hr, rfl⟩ := List.mem_map.1 hn
    exact ((hrows r hr).optional "references_column" (by simp)).isText (htruthy r hr)
  · cases hn

theorem target_unique (h : f.IsReadFrom id columns g) (h' : f'.IsReadFrom id columns g) :
    f.target = f'.target ∧ f.targetColumns = f'.targetColumns :=
  ⟨h.target_eq.trans h'.target_eq.symm, h.targets_eq.trans h'.targets_eq.symm⟩

end ForeignKey.IsReadFrom

namespace KeyGroup
variable {id : TableId} {columns : List Column} {g : Cluster Document} {rows : List Document}

theorem columnsIn_isOk (columns : List Column) (h : ∀ r ∈ rows, r.IsKeyRow) :
    ∃ x, columnsIn columns (rows.map KeyRow.ofDocument) = .ok x := by
  induction rows with
  | nil => exact ⟨_, rfl⟩
  | cons row rows ih =>
    obtain ⟨hrow, hrows⟩ := List.forall_mem_cons.1 h
    obtain ⟨name, hname, _⟩ := hrow.isTyped.column
    obtain ⟨x, hx⟩ := ih hrows
    rw [List.map_cons, columnsIn, hname, Answer.ok_bind, hx]
    cases Column.find? columns name with
    | none => exact ⟨_, rfl⟩
    | some c => exact ⟨_, rfl⟩

theorem build_declare_isOk (id : TableId) {cs : List Column} (hrows : ∀ r ∈ g.entries, r.IsKeyRow)
    (hcs : Column.AreCalled columns (g.entries.map (field "column")) cs) :
    ∃ declared key, (read g).declare id cs = .ok declared ∧ declared.build = .ok key := by
  obtain ⟨target, htarget, _⟩ := (hrows g.first List.mem_cons_self).isTyped.target
  have hlength : cs.length = g.entries.length := by
    rw [← List.Forall₂.length_eq hcs, List.length_map]
  have hne : cs ≠ [] := by
    rintro rfl
    cases hlength
  have hpaired : (read g).targetColumns = [] ∨ (read g).targetColumns.length = cs.length := by
    rw [targetColumns_read]
    split
    · exact .inr (by rw [List.length_map, hlength])
    · exact .inl rfl
  obtain ⟨key, hkey⟩ := ForeignKeyDecl.build_isOk
    (f := ⟨id, ⟨target, _, _⟩, cs, _, (read g).name⟩) hne hpaired
  have hread : (read g).first.target = .ok target := htarget
  exact ⟨_, key, by rw [declare, hread]; rfl, hkey⟩

/-- A constraint is read without breaking a rule: it becomes its foreign key or a warning. -/
theorem build?_ends {E : DefinitionError → Prop} (hid : id.IsTyped)
    (hrows : ∀ r ∈ g.entries, r.IsKeyRow) : ((read g).build? id columns).Ends (fun o ws =>
      ws = (dropWarning? id columns g).toList ∧ ∀ f ∈ o, f.IsReadFrom id columns g) E := by
  have hreads : ∀ o, ((read g).build? id columns).result = .ok o →
      ∀ f ∈ o, f.IsReadFrom id columns g := by
    intro o ho f hf
    rcases build?_eq_ok g o ho with ⟨_, rfl⟩ | ⟨_, f', rfl, hf'⟩
    · cases hf
    · obtain rfl := Option.some.inj hf
      exact hf'
  suffices h : ((read g).build? id columns).Ends
      (fun _ ws => ws = (dropWarning? id columns g).toList) E from
    h.mono fun o ws ho hws => ⟨hws, hreads o ho⟩
  obtain ⟨x, hx⟩ := columnsIn_isOk columns hrows
  rw [build?, rows_read, hx, Report.ofAnswer_ok_bind]
  rcases columnsIn_eq_ok hx with ⟨cs, rfl, hcs⟩ | ⟨row, hrow, rfl⟩
  · obtain ⟨declared, key, hdeclared, hkey⟩ := build_declare_isOk id hrows hcs
    rw [dropWarning?_eq_none (Column.isOver_of_areCalled hcs)]
    simp only [hdeclared, hkey, Report.ofAnswer_ok_bind, Report.ofDefinition_ok_bind]
    exact Report.ends_pure rfl
  · have hdrop : dropWarning? id columns g =
        some (.unknownLocalColumn (read g).name id (row.field "column")) := by
      rw [dropWarning?, hrow]
      rfl
    have hmessage : ∃ m, (Warning.unknownLocalColumn (read g).name id
        (row.field "column")).message = .ok m := by
      obtain ⟨s, hs⟩ := hid.text_isOk
      exact ⟨_, by rw [Warning.message, hs]; rfl⟩
    have hwarn : (Report.warn (.unknownLocalColumn (read g).name id (row.field "column"))).Ends
        (fun _ ws => ws = [.unknownLocalColumn (read g).name id (row.field "column")]) E :=
      Report.ends_warn hmessage rfl
    rw [hdrop]
    refine hwarn.bind fun _ ws hws => Report.ends_pure ?_
    rw [hws]
    rfl

theorem collect_ends {E : DefinitionError → Prop} (hid : id.IsTyped)
    (hrows : ∀ r ∈ rows, r.IsKeyRow) :
    (Report.collect (build? id columns) ((constraints rows).map read)).Ends (fun fs ws =>
      ws = (constraints rows).filterMap (dropWarning? id columns) ∧
        ∀ f ∈ fs, ∃ g ∈ constraints rows, f.IsReadFrom id columns g) E := by
  rw [List.filterMap_eq_flatMap_toList, Report.collect_map]
  refine Report.ends_collect fun g hg => ?_
  refine (build?_ends hid fun r hr => hrows r (Cluster.mem_of_mem_byName hg hr)).mono ?_
  exact fun o ws _ ⟨hws, hf⟩ => ⟨hws, fun f hmem => ⟨g, hg, hf f hmem⟩⟩

end KeyGroup

namespace Document.IsTableRow
variable {t : Document}

theorem describedId_isTyped (h : t.IsTableRow) : t.describedId.IsTyped :=
  ⟨h.name, h.schema, h.catalog⟩

theorem describedColumns_isText (h : t.IsTableRow) : ∀ c ∈ t.describedColumns, c.name.IsText :=
  List.forall_mem_map.2 fun _ hc => (h.columns.mem hc).name

theorem primaryKey_isText (h : t.IsTableRow) : ∀ n ∈ t.items "primary_key", n.IsText :=
  (givenEntries_eq h.primaryKey).2

theorem describedKey_isText (h : t.IsTableRow) : ∀ n ∈ t.describedKey, n.IsText := by
  intro n hn
  rw [describedKey] at hn
  split at hn
  · obtain ⟨c, hc, rfl⟩ := List.mem_map.1 hn
    exact (h.columns.mem (List.mem_filter.1 hc).1).name
  · exact h.primaryKey_isText n hn

/-- Marked columns are columns of the table, so that only listed ones can be missing. -/
theorem filter_describedKey (h : t.IsTableRow) :
    (t.describedKey.filter fun n => (Column.find? t.describedColumns n).isNone) =
      t.missingKeyColumns := by
  rw [missingKeyColumns, describedKey]
  split
  · rename_i hempty
    rw [hempty, List.filter_nil, List.filter_eq_nil_iff]
    intro n hn
    obtain ⟨c, hc, rfl⟩ := List.mem_map.1 hn
    have hc := (List.mem_filter.1 hc).1
    have hmem : c.field "name" ∈ Column.names t.describedColumns :=
      List.mem_map_of_mem (f := Column.name) (List.mem_map_of_mem (f := describedColumn) hc)
    rw [Option.isNone_iff_eq_none, ← Option.not_isSome_iff_eq_none, not_not]
    exact (Column.mem_names_iff_find? (h.columns.mem hc).name).1 hmem
  · refine List.filter_congr fun n hn => ?_
    rw [Bool.eq_iff_iff, decide_eq_true_iff, Column.mem_names_iff_find? (h.primaryKey_isText n hn),
      Option.not_isSome_iff_eq_none, Option.isNone_iff_eq_none]

end Document.IsTableRow

namespace TableRow
variable {t : Document}

theorem key_ends {E : DefinitionError → Prop} {names : List Name} {columns : List Column}
    (hnames : names ≠ []) (hfound : (names.filter fun n => (Column.find? columns n).isNone) = []) :
    (Report.ofDefinition
      (KeyDecl.build { columns := names.filterMap (Column.find? columns) })).Ends
      (fun key ws => ws = [] ∧ ∀ c ∈ key.columns, c ∈ columns) E := by
  refine Report.ends_ofDefinition (fun key hkey => ⟨rfl, fun c hc => ?_⟩) fun e he => ?_
  · have hcolumns : key.columns = names.filterMap (Column.find? columns) :=
      congrArg KeyDecl.columns (KeyDecl.build_eq_ok_iff.1 hkey)
    rw [hcolumns] at hc
    obtain ⟨n, _, hn⟩ := List.mem_filterMap.1 hc
    exact (Column.mem_of_find? hn).1
  · have hempty : names.filterMap (Column.find? columns) = [] := KeyDecl.build_eq_error he
    obtain ⟨n, hn⟩ := List.exists_mem_of_ne_nil names hnames
    refine absurd (List.filterMap_eq_nil_iff.1 hempty n hn) fun hnone => ?_
    refine List.filter_eq_nil_iff.1 hfound n hn ?_
    rw [hnone]
    rfl

theorem buildKey?_ends (h : t.IsTableRow) :
    ((ofDocument t).buildKey? (t.field "name") ((t.items "columns").map columnRow)).Ends
      (fun key ws => ws = [] ∧ t.missingKeyColumns = [] ∧
        ∀ k ∈ key, ∀ c ∈ k.columns, c ∈ t.describedColumns) t.TableBreaks := by
  have hcolumns : ((t.items "columns").map columnRow).map ColumnRow.column = t.describedColumns :=
    List.map_map
  have hkeys : t.describedKey.mapM asKey = .ok t.describedKey :=
    (Answer.mapM_eq_map fun n hn => asKey_of_isText (h.describedKey_isText n hn)).trans
      (congrArg Except.ok (List.map_id _))
  have hmissing := h.filter_describedKey
  rw [buildKey?, keyNames_eq, hkeys, Report.ofAnswer_ok_bind]
  dsimp only
  rw [hcolumns, hmissing]
  split
  · rename_i hnone
    refine Report.ends_pure ⟨rfl, ?_, nofun⟩
    rw [← hmissing, List.isEmpty_iff.1 hnone]
    rfl
  · rename_i hsome
    split
    · rename_i hknown
      rw [List.isEmpty_iff] at hknown
      have hbuilt := key_ends (E := t.TableBreaks) (fun h => hsome (List.isEmpty_iff.2 h))
        (hmissing.trans hknown)
      refine hbuilt.bind fun key ws hkeyed => Report.ends_pure ?_
      obtain ⟨rfl, hkey⟩ := hkeyed
      refine ⟨rfl, hknown, fun k hk => ?_⟩
      obtain rfl := Option.some.inj hk
      exact hkey
    · rename_i hunknown
      rw [List.isEmpty_iff] at hunknown
      exact Report.ends_error (.unknownKeyColumns hunknown)

/-- A table is read with the foreign keys of its rows, unless it breaks a rule by itself. -/
theorem build_ends {named : List (Name × KeyRow)} {rows : List Document} (h : t.IsTableRow)
    (hown : (named.filter fun r => r.1.same (t.field "name")).map Prod.snd =
      rows.map KeyRow.ofDocument) (hrows : ∀ r ∈ rows, r.IsKeyRow) :
    ((ofDocument t).build named).Ends (fun table ws => ws = t.tableWarnings rows ∧
      table.IsReadFrom t rows ∧ t.missingKeyColumns = []) t.TableBreaks := by
  suffices hends : ((ofDocument t).build named).Ends
      (fun _ ws => ws = t.tableWarnings rows ∧ t.missingKeyColumns = []) t.TableBreaks from
    hends.mono fun table ws htable hws => ⟨hws.1, isReadFrom_of_build htable hown, hws.2⟩
  have hname : (ofDocument t).name = .ok (t.field "name") :=
    required_of_isSome (isSome_of_isText h.name)
  obtain ⟨_, hcolumns, _⟩ := h.isTyped.columns
  obtain rfl := columns_eq_ok hcolumns
  obtain ⟨keyed, hkeyed⟩ : ∃ keyed, (rows.map KeyRow.ofDocument).mapM KeyRow.named = .ok keyed := by
    refine Answer.mapM_isOk (List.forall_mem_map.2 fun r hr => ?_)
    obtain ⟨name, hname, _⟩ := (hrows r hr).isTyped.name
    exact ⟨(name, KeyRow.ofDocument r), by rw [KeyRow.named, hname]; rfl⟩
  have hdescribed : ((t.items "columns").map columnRow).map ColumnRow.column = t.describedColumns :=
    List.map_map
  rw [build, hname, hcolumns]
  simp only [Report.ofAnswer_ok_bind]
  refine (buildKey?_ends h).bind fun key ws hbuilt => ?_
  obtain ⟨rfl, hmissing, hkey⟩ := hbuilt
  rw [asKey_of_isText h.name, Report.ofAnswer_ok_bind, hown, hkeyed, Report.ofAnswer_ok_bind,
    KeyGroup.ofRows_of_mapM hkeyed, hdescribed]
  refine (KeyGroup.collect_ends h.describedId_isTyped hrows).bind fun fs vs hcollected => ?_
  obtain ⟨rfl, hfs⟩ := hcollected
  refine Report.ends_ofDefinition (fun _ _ => ⟨?_, hmissing⟩) fun e he => ?_
  · rw [List.append_nil, List.nil_append]
    rfl
  · have hforeign : ∀ f ∈ fs,
        f.table = t.describedId ∧ ∀ c ∈ f.columns, c ∈ t.describedColumns := by
      intro f hf
      obtain ⟨g, _, hg⟩ := hfs f hf
      exact ⟨hg.table_eq, hg.mem_columns⟩
    obtain ⟨_, c, hrepeat, rfl⟩ :=
      Table.firstRepeat_of_build h.describedColumns_isText hkey hforeign he
    exact .repeatedColumn hrepeat.duplicate

end TableRow

namespace Table.IsReadFrom
variable {table : Table} {t : Document} {rows : List Document} {f : ForeignKey}

theorem foreignKey_of_mem (h : table.IsReadFrom t rows) (hf : f ∈ table.foreignKeys) :
    ∃ g ∈ constraints rows, f.IsReadFrom t.describedId t.describedColumns g := by
  obtain ⟨g, hg, hread⟩ := h.foreignKeys.exists_left hf
  rw [h.id_eq, h.columns_eq] at hread
  exact ⟨g, (List.mem_filter.1 hg).1, hread⟩

theorem exists_foreignKey (h : table.IsReadFrom t rows) {g : Cluster Document}
    (hg : g ∈ constraints rows) (hf : f.IsReadFrom t.describedId t.describedColumns g) :
    ∃ f' ∈ table.foreignKeys, f'.target = f.target ∧ f'.targetColumns = f.targetColumns := by
  rw [← h.id_eq, ← h.columns_eq] at hf
  have hover : ∀ row ∈ g.entries, row.IsOver table.columns :=
    Column.isOver_of_areCalled hf.columns_called
  obtain ⟨f', hf', hread⟩ :=
    h.foreignKeys.exists_right (List.mem_filter.2 ⟨hg, by simpa using hover⟩)
  exact ⟨f', hf', hread.target_unique hf⟩

end Table.IsReadFrom

namespace Document
variable {d : Document} {tables : List Table} {e : DefinitionError}

theorem IsReadInto.ids_eq (h : d.IsReadInto tables) :
    tables.map Table.id = (d.items "tables").map describedId :=
  (List.Forall₂.map_eq_map h fun _ _ hread => hread.id_eq.symm).symm

/-- What the tables break together is a rule that the description breaks. -/
theorem IsReadInto.breaks (h : d.IsReadInto tables) (hd : d.IsDescription)
    (he : Schema.build tables = .error e) : d.Breaks e := by
  have hids : ∀ table ∈ tables, table.id.IsTyped := by
    intro table htable
    obtain ⟨t, ht, hread⟩ := List.Forall₂.exists_left h htable
    rw [hread.id_eq]
    exact (hd.tables.mem ht).describedId_isTyped
  have htargets : ∀ table ∈ tables, ∀ f ∈ table.foreignKeys,
      f.target.isPlain ∧ ∀ n ∈ f.targetColumns, n.IsText := by
    intro table htable f hf
    obtain ⟨t, ht, hread⟩ := List.Forall₂.exists_left h htable
    obtain ⟨g, hg, hkey⟩ := hread.foreignKey_of_mem hf
    have hrows : ∀ r ∈ g.entries, r.IsKeyRow := fun r hr =>
      isKeyRow_keyRowsFor hd _ r (Cluster.mem_of_mem_byName hg hr)
    exact ⟨hkey.target_isPlain (hd.tables.mem ht).describedId_isTyped hrows,
      hkey.targetColumns_isText hrows⟩
  rcases Schema.build_eq_error hids htargets he with
    ⟨id, hid, rfl⟩ | ⟨table, htable, f, hf, other, hother, htarget, n, hn, hunknown, rfl⟩
  · exact .repeatedTable (h.ids_eq ▸ hid)
  · obtain ⟨t, ht, hread⟩ := List.Forall₂.exists_left h htable
    obtain ⟨u, hu, hread'⟩ := List.Forall₂.exists_left h hother
    obtain ⟨g, hg, hkey⟩ := hread.foreignKey_of_mem hf
    exact .unknownTarget ht hg hkey hu (hread'.id_eq ▸ htarget) hn (hread'.columns_eq ▸ hunknown)

/-- A description that is read into the tables of a schema breaks no rule. -/
theorem IsReadInto.not_breaks {schema : Schema} (h : d.IsReadInto schema.tables)
    (hd : d.IsDescription) (hknown : ∀ t ∈ d.items "tables", t.missingKeyColumns = []) :
    ¬ d.Breaks e := by
  rintro (⟨ht, hbreaks⟩ | hid | ⟨ht, hg, hf, hother, htarget, hname, hunknown⟩)
  · cases hbreaks with
    | unknownKeyColumns hmissing => exact hmissing (hknown _ ht)
    | repeatedColumn hrepeated =>
      obtain ⟨table, _, hread⟩ := List.Forall₂.exists_right h ht
      have hnodup : (Column.names table.columns).Nodup := by
        refine List.Nodup.of_map Document.key ?_
        rw [Column.names, List.map_map]
        exact table.names_nodup
      exact List.nodup_iff_forall_not_duplicate.1 hnodup _ (hread.columns_eq ▸ hrepeated)
  · have hnodup : (schema.tables.map Table.id).Nodup := by
      refine List.Nodup.of_map TableId.key ?_
      rw [List.map_map]
      exact schema.ids_nodup
    exact List.nodup_iff_forall_not_duplicate.1 hnodup _ (h.ids_eq ▸ hid)
  · obtain ⟨table, htable, hread⟩ := List.Forall₂.exists_right h ht
    obtain ⟨other, hmem, hread'⟩ := List.Forall₂.exists_right h hother
    obtain ⟨f', hf', hsame, hcolumns⟩ := hread.exists_foreignKey hg hf
    have hreferred : other.id.same f'.target := by
      rw [hread'.id_eq, htarget, hsame]
      exact TableId.same_self _
    have hfound := schema.targets_known table htable f' hf' other hmem hreferred _
      (hcolumns ▸ hname)
    rw [Table.column?, hread'.columns_eq] at hfound
    have htext := hf.targetColumns_isText
      (fun r hr => isKeyRow_keyRowsFor hd _ r (Cluster.mem_of_mem_byName hg hr)) _ hname
    exact hunknown ((Column.mem_names_iff_find? htext).2 hfound)

end Document

namespace Schema

/-- A description is read into a schema, unless it breaks a rule. -/
theorem ofDocument_ends {d : Document} (hd : d.IsDescription) :
    (ofDocument d).Ends (fun schema ws => ws = d.dropWarnings ∧ d.IsReadInto schema.tables ∧
      ∀ t ∈ d.items "tables", t.missingKeyColumns = []) d.Breaks := by
  obtain ⟨named, hnamed, hown⟩ := (hd.isTyped hd.read_eq).keyRows_gives
  rw [ofDocument, hd.read_eq, Report.ofAnswer_ok_bind, Description.build, hnamed,
    Report.ofAnswer_ok_bind, List.mapM_map]
  have htables : ∀ t ∈ d.items "tables", ((TableRow.ofDocument t).build named).Ends
      (fun table ws => ws = t.tableWarnings (d.keyRowsFor (t.field "name")) ∧
        table.IsReadFrom t (d.keyRowsFor (t.field "name")) ∧ t.missingKeyColumns = [])
      d.Breaks := by
    intro t ht
    have hrows := (hown (t.field "name")).trans (rowsFor_eq hd hd.read_eq _)
    have hends := TableRow.build_ends (hd.tables.mem ht) hrows (isKeyRow_keyRowsFor hd _)
    exact hends.imp_error fun e he => .table ht he
  refine (Report.ends_mapM htables).bind fun tables ws hmapped => ?_
  obtain ⟨rfl, hread⟩ := hmapped
  have hinto : d.IsReadInto tables := hread.imp fun _ _ h => h.1
  refine Report.ends_ofDefinition (fun schema hschema => ?_) fun e he => hinto.breaks hd he
  rw [Schema.build_eq_ok_iff.1 hschema, List.append_nil]
  refine ⟨rfl, hinto, fun t ht => ?_⟩
  obtain ⟨table, _, h⟩ := hread.exists_right ht
  exact h.2

/-- A description makes no schema exactly when it breaks a rule, and only such rules are reported.
Otherwise tables and columns keep their order, and each constraint that is left out is warned of. -/
theorem refused_iff_breaks {d : Document} (h : d.IsDescription) :
    ((∃ e, (ofDocument d).result = .error (.definition e)) ↔ ∃ e, d.Breaks e) ∧
    (∀ fault, (ofDocument d).result = .error fault → ∃ e, fault = .definition e ∧ d.Breaks e) ∧
    ∀ schema, (ofDocument d).result = .ok schema →
      d.IsReadInto schema.tables ∧ (ofDocument d).warnings = d.dropWarnings := by
  rcases ofDocument_ends h with ⟨schema, ws, hread, hws, hinto, hknown⟩ | ⟨e, ws, hread, hbreaks⟩
  · have hnone : ∀ e, ¬ d.Breaks e := fun e => hinto.not_breaks h hknown
    rw [hread]
    refine ⟨⟨nofun, fun ⟨e, he⟩ => absurd he (hnone e)⟩, nofun, fun schema' hok => ?_⟩
    obtain rfl := Except.ok.inj hok
    exact ⟨hinto, hws⟩
  · rw [hread]
    refine ⟨⟨fun _ => ⟨e, hbreaks⟩, fun _ => ⟨e, rfl⟩⟩, fun fault hfault => ?_, nofun⟩
    obtain rfl := Except.error.inj hfault
    exact ⟨e, rfl, hbreaks⟩

end Schema

def Document.keyRow (column target targetColumn : String) : Document :=
  .record [("column", column), ("references_table", target), ("references_column", targetColumn)]

/-- A table with a foreign key to a column of its own, and one over a column that is not there. -/
def Document.strays (targetColumn : String) : Document :=
  .record [("tables", .list [.ordersIn "shop" [.keyRow "parent" "orders" targetColumn,
    .keyRow "customer" "customers" "id"]])]

namespace Schema

/-- The foreign key over the missing column is left out; one to a missing column is refused. -/
theorem refused_iff_breaks_strays :
    (∃ schema, (ofDocument (.strays "id")).result = .ok schema ∧
      (∀ e, ¬ (strays "id").Breaks e) ∧ (strays "id").IsReadInto schema.tables ∧
      (strays "id").dropWarnings =
        [.unknownLocalColumn .null { name := "orders", schema := "shop" } "customer"]) ∧
    ∃ e, (strays "number").Breaks e ∧
      (ofDocument (.strays "number")).result = .error (.definition e) := by
  constructor
  · obtain ⟨hiff, _, hok⟩ := refused_iff_breaks (d := .strays "id") (by decide)
    have hrun : (ofDocument (.strays "id")).result.toOption.any fun _ => true := by decide
    have hwarnings : (ofDocument (.strays "id")).warnings =
        [.unknownLocalColumn .null { name := "orders", schema := "shop" } "customer"] := by decide
    obtain ⟨schema, hschema, _⟩ := exists_ok_of_toOption_any hrun
    obtain ⟨hread, hdropped⟩ := hok schema hschema
    refine ⟨schema, hschema, fun e he => ?_, hread, hdropped.symm.trans hwarnings⟩
    obtain ⟨_, herror⟩ := hiff.2 ⟨e, he⟩
    cases hschema.symm.trans herror
  · obtain ⟨_, herrors, _⟩ := refused_iff_breaks (d := .strays "number") (by decide)
    have hrun : (ofDocument (.strays "number")).result.toOption = none := by decide
    cases hresult : (ofDocument (.strays "number")).result with
    | ok schema => simp [hresult, Except.toOption] at hrun
    | error fault =>
      obtain ⟨e, rfl, he⟩ := herrors fault hresult
      exact ⟨e, he, rfl⟩

end Schema
end EntityMapping
