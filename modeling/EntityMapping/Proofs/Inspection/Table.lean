import EntityMapping.Proofs.Inspection.Typed
import EntityMapping.Proofs.Relational.WellFormed

/-! # What is read of an inspected table

A table is read as it is reported last, unless two of its columns have one name. Key columns that
are no columns of the table are passed over, and a foreign key over such a column is left out with a
warning.
-/
namespace EntityMapping
open Document

def Column.AreNamed (columns : List Column) (names : List Name) (cs : List Column) : Prop :=
  List.Forall₂ (fun n c => c ∈ columns ∧ c.name = n) names cs

namespace Document

def reportedTable? (reported : Document) (n : Name) : Option Document :=
  (reported.items "tables").reverse.find? fun d => d.field "name" = n

def knownKeyNames (d : Document) : List Name :=
  ((d.field "pk").items "constrained_columns").filter fun n => n ∈ Column.names d.reportedColumns

/-- A foreign key that has columns, all of them known. -/
def IsReadable (columns : List Column) (k : Document) : Prop :=
  k.items "constrained_columns" ≠ [] ∧
    ∀ n ∈ k.items "constrained_columns", n ∈ Column.names columns

instance {columns : List Column} : DecidablePred (IsReadable columns) := fun _ =>
  inferInstanceAs (Decidable (_ ∧ _))

def readableKeys (d : Document) : List Document :=
  (d.items "fks").filter fun k => k.IsReadable d.reportedColumns

def keyWarnings (d : Document) (schema : Name) : List Warning :=
  ((d.items "fks").filter fun k => ¬ k.IsReadable d.reportedColumns).map fun k =>
    .unreadableKey (k.field "name") { name := d.field "name", schema }

def referredNames (k : Document) : List Name := (k.items "referred_columns").filter truthy

end Document

structure PrimaryKey.IsAsReported (columns : List Column) (d : Document) (k : PrimaryKey) :
    Prop where
  columns_named : Column.AreNamed columns d.knownKeyNames k.columns
  name_eq : k.name = (d.field "pk").field "name"

/-- The referenced names count only if there are as many as columns. -/
structure ForeignKey.IsAsReported (id : TableId) (columns : List Column) (k : Document)
    (f : ForeignKey) : Prop where
  table_eq : f.table = id
  target_eq : f.target = {
    name := k.field "referred_table"
    schema := if (k.field "referred_schema").truthy then k.field "referred_schema" else id.schema }
  columns_named : Column.AreNamed columns (k.items "constrained_columns") f.columns
  targets_eq : f.targetColumns =
    if k.referredNames.length = (k.items "constrained_columns").length then k.referredNames else []
  name_eq : f.name = k.field "name"

structure Table.IsAsReported (schema : Name) (d : Document) (t : Table) : Prop where
  id_eq : t.id = { name := d.field "name", schema }
  columns_eq : t.columns = d.reportedColumns
  key_none : t.primaryKey = none ↔ d.knownKeyNames = []
  key_some : ∀ k ∈ t.primaryKey, k.IsAsReported t.columns d
  foreignKeys : List.Forall₂ (ForeignKey.IsAsReported t.id t.columns) d.readableKeys t.foreignKeys
  comment_eq : t.comment = (d.field "comment").field "text"

/-- How the reading of a table ends, and its warnings. -/
inductive Table.Reading (url : String) (schema : Name) (reported : Document) (n : Name) :
    Report Table → Prop
  | undescribed (h : reported.reportedTable? n = none) :
    Reading url schema reported n ⟨.error (.unreadable n url), []⟩
  | repeatedColumn {d : Document} {b c : Column} (hd : reported.reportedTable? n = some d)
    (h : FirstRepeat Column.name d.reportedColumns b c) :
    Reading url schema reported n
      ⟨.error (.definition (.repeatedColumn c.name { name := n, schema })), d.keyWarnings schema⟩
  | table {d : Document} {t : Table} (hd : reported.reportedTable? n = some d)
    (ht : t.IsAsReported schema d) :
    Reading url schema reported n ⟨.ok t, d.keyWarnings schema⟩

namespace Column
variable {columns : List Column} {ns : List Name}

theorem isText_name_of_mem {ds : List Document} (h : ∀ x ∈ ds, x.IsReportedColumn) :
    ∀ c ∈ ds.map Document.reportedColumn, c.name.IsText :=
  List.forall_mem_map.2 fun x hx => (h x hx).name

theorem find?_eq_none_iff (hcolumns : ∀ c ∈ columns, c.name.IsText) {n : Name} :
    find? columns n = none ↔ n ∉ names columns := by
  rw [find?, List.find?_eq_none, names, List.mem_map]
  constructor
  · rintro h ⟨c, hc, rfl⟩
    exact h c hc (Document.same_self _)
  · intro h c hc hsame
    exact h ⟨c, hc, (hcolumns c hc).eq_of_key (Document.same_iff.1 hsame)⟩

theorem name_of_find? (hcolumns : ∀ c ∈ columns, c.name.IsText) {n : Name} {c : Column}
    (h : find? columns n = some c) : c ∈ columns ∧ c.name = n := by
  obtain ⟨hc, hsame⟩ := mem_of_find? h
  exact ⟨hc, (hcolumns c hc).eq_of_key (Document.same_iff.1 hsame)⟩

theorem AreNamed.mem {cs : List Column} (h : AreNamed columns ns cs) : ∀ c ∈ cs, c ∈ columns := by
  intro c hc
  obtain ⟨_, _, hmem, _⟩ := List.Forall₂.exists_left h hc
  exact hmem

theorem areNamed_filterMap (hcolumns : ∀ c ∈ columns, c.name.IsText) (ns : List Name) :
    AreNamed columns (ns.filter fun n => n ∈ names columns) (ns.filterMap (find? columns)) := by
  induction ns with
  | nil => exact .nil
  | cons n ns ih =>
    cases hn : find? columns n with
    | none =>
      have hmem := (find?_eq_none_iff hcolumns).1 hn
      rw [List.filterMap_cons_none hn, List.filter_cons_of_neg (by simpa using hmem)]
      exact ih
    | some c =>
      have hmem : n ∈ names columns := by
        by_contra hnone
        cases hn.symm.trans ((find?_eq_none_iff hcolumns).2 hnone)
      rw [List.filterMap_cons_some hn, List.filter_cons_of_pos (by simpa using hmem)]
      exact .cons (name_of_find? hcolumns hn) ih

variable (hcolumns : ∀ c ∈ columns, c.name.IsText) (hns : ∀ n ∈ ns, n.IsOptionalText)
include hcolumns hns

theorem findAll?_of_known (hknown : ∀ n ∈ ns, n ∈ names columns) :
    ∃ cs, findAll? columns ns = .ok (some cs) ∧ AreNamed columns ns cs := by
  induction ns with
  | nil => exact ⟨[], rfl, .nil⟩
  | cons n ns ih =>
    obtain ⟨hn, hns⟩ := List.forall_mem_cons.1 hns
    obtain ⟨hmem, hknown⟩ := List.forall_mem_cons.1 hknown
    obtain ⟨cs, hcs, hnamed⟩ := ih hns hknown
    have hkey : n.asKey = .ok n := if_pos hn.isPlain
    cases hfind : find? columns n with
    | none => exact absurd hmem ((find?_eq_none_iff hcolumns).1 hfind)
    | some c =>
      refine ⟨c :: cs, ?_, .cons (name_of_find? hcolumns hfind) hnamed⟩
      rw [findAll?, hkey, Answer.ok_bind, hfind, hcs]
      rfl

theorem findAll?_of_unknown (hunknown : ∃ n ∈ ns, n ∉ names columns) :
    findAll? columns ns = .ok none := by
  induction ns with
  | nil =>
    obtain ⟨_, hn, _⟩ := hunknown
    cases hn
  | cons n ns ih =>
    obtain ⟨hn, hns⟩ := List.forall_mem_cons.1 hns
    have hkey : n.asKey = .ok n := if_pos hn.isPlain
    rw [findAll?, hkey, Answer.ok_bind]
    cases hfind : find? columns n with
    | none => rfl
    | some c =>
      have hmem : n ∈ names columns := (name_of_find? hcolumns hfind).2 ▸
        List.mem_map_of_mem (name_of_find? hcolumns hfind).1
      -- the unknown name comes later
      have hrest : ∃ n ∈ ns, n ∉ names columns := by
        obtain ⟨m, hm, hnot⟩ := hunknown
        rcases List.mem_cons.1 hm with rfl | hm
        · exact absurd hmem hnot
        · exact ⟨m, hm, hnot⟩
      dsimp only
      rw [ih hns hrest]
      rfl

end Column

def Document.declaredKey (id : TableId) (cs : List Column) (k : Document) : ForeignKeyDecl where
  table := id
  target := {
    name := k.field "referred_table"
    schema := if (k.field "referred_schema").truthy then k.field "referred_schema" else id.schema }
  columns := cs
  targetColumns := if k.referredNames.length = cs.length then k.referredNames else []
  name := k.field "name"

theorem Document.declaredKey_paired {id : TableId} {cs : List Column} (k : Document) :
    (k.declaredKey id cs).targetColumns = [] ∨
      (k.declaredKey id cs).targetColumns.length = (k.declaredKey id cs).columns.length := by
  unfold declaredKey
  dsimp only
  split
  · exact .inr ‹_›
  · exact .inl rfl

theorem InspectedKey.declare_eq {id : TableId} {cs : List Column} {k : Document} :
    k.inspectedKey.declare id cs = .ok (k.declaredKey id cs) := by
  have hschema : (if (k.givenAt "referred_schema").truthy then k.givenAt "referred_schema"
      else id.schema) = (k.declaredKey id cs).target.schema := by
    rw [Document.givenAt_eq, Document.truthy_label, Document.label, Document.declaredKey]
    by_cases h : (k.field "referred_schema").truthy
    · simp only [if_pos h]
    · simp only [if_neg h]
  rw [declare, Document.inspectedKey, Answer.ok_bind, Answer.ok_bind, hschema]
  rfl

section
variable {id : TableId} {columns : List Column} {k : Document}
  (hcolumns : ∀ c ∈ columns, c.name.IsText) (hk : k.IsReportedKey)
include hcolumns hk

theorem InspectedKey.localColumns?_of_readable (h : k.IsReadable columns) :
    ∃ cs, k.inspectedKey.localColumns? columns = .ok (some cs) ∧
      Column.AreNamed columns (k.items "constrained_columns") cs := by
  obtain ⟨hne, hknown⟩ := h
  obtain ⟨cs, hcs, hnamed⟩ := Column.findAll?_of_known hcolumns
    (hk.columns "constrained_columns" (by simp)).givenEntries_eq.2 hknown
  refine ⟨cs, ?_, hnamed⟩
  rw [localColumns?, Document.inspectedKey, Answer.ok_bind, if_neg (by simpa using hne), hcs]

theorem InspectedKey.localColumns?_of_not_readable (h : ¬ k.IsReadable columns) :
    k.inspectedKey.localColumns? columns = .ok none := by
  rw [localColumns?, Document.inspectedKey, Answer.ok_bind]
  split
  · rfl
  · rename_i hne
    refine Column.findAll?_of_unknown hcolumns
      (hk.columns "constrained_columns" (by simp)).givenEntries_eq.2 ?_
    by_contra hall
    exact h ⟨by simpa using hne, fun n hn => by_contra fun hnot => hall ⟨n, hn, hnot⟩⟩

theorem InspectedKey.build?_of_readable (h : k.IsReadable columns) :
    ∃ f, build? id columns (.ok k.inspectedKey) = ⟨.ok (some f), []⟩ ∧
      f.IsAsReported id columns k := by
  obtain ⟨cs, hcs, hnamed⟩ := localColumns?_of_readable hcolumns hk h
  have hlength : cs.length = (k.items "constrained_columns").length := hnamed.length_eq.symm
  have hne : cs ≠ [] := by
    rw [← List.length_pos_iff, hlength, List.length_pos_iff]
    exact h.1
  obtain ⟨f, hf⟩ := ForeignKeyDecl.build_isOk (f := k.declaredKey id cs) hne k.declaredKey_paired
  have hdeclared := ForeignKeyDecl.build_eq_ok_iff.1 hf
  rw [ForeignKey.declaration, Document.declaredKey, ForeignKeyDecl.mk.injEq] at hdeclared
  obtain ⟨htable, htarget, rfl, htargets, hname⟩ := hdeclared
  refine ⟨f, ?_, htable, htarget, hnamed, hlength ▸ htargets, hname⟩
  rw [build?, Report.ofAnswer_ok_bind, hcs, Report.ofAnswer_ok_bind]
  dsimp only
  rw [declare_eq, Report.ofAnswer_ok_bind, hf, Report.ofDefinition_ok_bind]
  rfl

theorem InspectedKey.build?_of_not_readable (hid : id.IsTyped) (h : ¬ k.IsReadable columns) :
    build? id columns (.ok k.inspectedKey) =
      ⟨.ok none, [.unreadableKey (k.field "name") id]⟩ := by
  obtain ⟨s, hs⟩ := hid.text_isOk
  have hmessage : (Warning.unreadableKey (k.field "name") id).message =
      .ok ("Skipping unreadable foreign key " ++ (k.field "name").shown ++ " on " ++ s) := by
    rw [Warning.message, hs]
    rfl
  rw [build?, Report.ofAnswer_ok_bind, localColumns?_of_not_readable hcolumns hk h,
    Report.ofAnswer_ok_bind]
  dsimp only
  have hname : k.inspectedKey.name = k.field "name" := rfl
  rw [Report.warn, hname, hmessage]
  rfl

end

section
variable {url : String} {schema : Name} {reported d : Document}

theorem InspectedTable.buildKey?_eq (hd : d.IsReportedTable) :
    ∃ key, d.inspectedTable.buildKey? d.reportedColumns = ⟨.ok key, []⟩ ∧
      (key = none ↔ d.knownKeyNames = []) ∧
      ∀ k ∈ key, k.IsAsReported d.reportedColumns d := by
  have hcolumns : ∀ c ∈ d.reportedColumns, c.name.IsText :=
    Column.isText_name_of_mem hd.columns.required_entries.2
  have hkeys : ((d.field "pk").items "constrained_columns").mapM Document.asKey =
      .ok ((d.field "pk").items "constrained_columns") := by
    refine (Answer.mapM_eq_map (g := id) fun n hn => ?_).trans (congrArg _ (List.map_id _))
    exact if_pos (hd.keyColumns.givenEntries_eq.2 n hn).isPlain
  have hnamed :=
    Column.areNamed_filterMap hcolumns ((d.field "pk").items "constrained_columns")
  rw [buildKey?, Document.inspectedTable, Answer.ok_bind, hkeys, Report.ofAnswer_ok_bind]
  cases hown : ((d.field "pk").items "constrained_columns").filterMap
      (Column.find? d.reportedColumns) with
  | nil =>
    rw [hown] at hnamed
    refine ⟨none, rfl, ⟨fun _ => List.forall₂_nil_right_iff.1 hnamed, fun _ => rfl⟩, ?_⟩
    intro k hk
    cases hk
  | cons c cs =>
    rw [hown] at hnamed
    refine ⟨some ⟨c :: cs, (d.field "pk").field "name", List.cons_ne_nil c cs⟩, rfl, ?_, ?_⟩
    · refine ⟨fun hnone => absurd hnone (Option.some_ne_none _), fun hnil => ?_⟩
      rw [Document.knownKeyNames] at hnil
      rw [hnil] at hnamed
      cases hnamed
    · rintro _ ⟨⟩
      exact ⟨hnamed, rfl⟩

theorem InspectedKey.collect_eq (hd : d.IsReportedTable) (hschema : schema.IsOptionalText) :
    ∃ fs, Report.collect (build? { name := d.field "name", schema } d.reportedColumns)
        ((d.items "fks").map fun k => .ok k.inspectedKey) = ⟨.ok fs, d.keyWarnings schema⟩ ∧
      List.Forall₂ (ForeignKey.IsAsReported { name := d.field "name", schema } d.reportedColumns)
        d.readableKeys fs := by
  have hcolumns : ∀ c ∈ d.reportedColumns, c.name.IsText :=
    Column.isText_name_of_mem hd.columns.required_entries.2
  have hid : TableId.IsTyped { name := d.field "name", schema } :=
    ⟨hd.name, hschema, isOptionalText_null⟩
  rw [Report.collect_map, Document.keyWarnings, Document.readableKeys]
  refine Report.collect_eq (fun k hk h => ?_) (fun k hk h => ?_)
  · exact build?_of_readable hcolumns (hd.foreignKeys.mem hk) h
  · exact build?_of_not_readable hcolumns (hd.foreignKeys.mem hk) hid h

/-- A table that is described is read as it is reported, unless two columns have one name. -/
theorem InspectedTable.reading (hd : d.IsReportedTable) (hschema : schema.IsOptionalText)
    (hfound : reported.reportedTable? (d.field "name") = some d) :
    Table.Reading url schema reported (d.field "name")
      (d.inspectedTable.build { name := d.field "name", schema }) := by
  -- all keys are made of columns of the table, so that only the columns can be refused
  obtain ⟨key, hkey, hnone, hsome⟩ := buildKey?_eq hd
  obtain ⟨fs, hfs, hparallel⟩ := InspectedKey.collect_eq hd hschema
  have hcolumns : ∀ c ∈ d.reportedColumns, c.name.IsText :=
    Column.isText_name_of_mem hd.columns.required_entries.2
  have hbuild : d.inspectedTable.build { name := d.field "name", schema } =
      ⟨(Table.build { name := d.field "name", schema } d.reportedColumns key fs
        ((d.field "comment").field "text")).mapError .definition, d.keyWarnings schema⟩ := by
    have hreported : d.inspectedTable.columns = .ok d.reportedColumns := rfl
    have hforeign : d.inspectedTable.foreignKeys =
      .ok ((d.items "fks").map fun k => .ok k.inspectedKey) := rfl
    rw [build, hreported, Report.ofAnswer_ok_bind, hkey, Report.ok_nil_bind, hforeign,
      Report.ofAnswer_ok_bind, hfs, Report.ok_bind]
    exact congrArg (Report.mk _) (List.append_nil _)
  rw [hbuild]
  cases htable : Table.build { name := d.field "name", schema } d.reportedColumns key fs
      ((d.field "comment").field "text") with
  | ok t =>
    obtain ⟨hid, hcs, hpk, hfks, hcomment⟩ := Table.build_eq_ok_iff.1 htable
    refine .table hfound ⟨hid, hcs, hpk ▸ hnone, ?_, ?_, hcomment⟩
    · rw [hpk, hcs]
      exact hsome
    · rw [hid, hcs, hfks]
      exact hparallel
  | error e =>
    have hown : ∀ f ∈ fs, f.table = { name := d.field "name", schema } ∧
        ∀ c ∈ f.columns, c ∈ d.reportedColumns := by
      intro f hf
      obtain ⟨k, _, hk⟩ := hparallel.exists_left hf
      exact ⟨hk.table_eq, hk.columns_named.mem⟩
    obtain ⟨b, c, hrepeat, rfl⟩ := Table.firstRepeat_of_build hcolumns
      (fun k hk => (hsome k hk).columns_named.mem) hown htable
    exact .repeatedColumn hfound hrepeat

theorem mem_of_reportedTable? {n : Name} (h : reported.reportedTable? n = some d) :
    d ∈ reported.items "tables" ∧ d.field "name" = n :=
  ⟨List.mem_reverse.1 (List.mem_of_find?_eq_some h), by simpa using List.find?_some h⟩

namespace Table.IsAsReported
variable {t : Table}

theorem isTyped_id (ht : t.IsAsReported schema d) (hd : d.IsReportedTable)
    (hschema : schema.IsOptionalText) : t.id.IsTyped := by
  rw [ht.id_eq]
  exact ⟨hd.name, hschema, isOptionalText_null⟩

theorem targets (ht : t.IsAsReported schema d) (hd : d.IsReportedTable)
    (hschema : schema.IsOptionalText) {f : ForeignKey} (hf : f ∈ t.foreignKeys) :
    f.target.isPlain ∧ ∀ n ∈ f.targetColumns, n.IsText := by
  obtain ⟨k, hk, hreported⟩ := ht.foreignKeys.exists_left hf
  have hkey : k.IsReportedKey := hd.foreignKeys.mem (List.mem_of_mem_filter hk)
  have hname := hkey.names "referred_table" (by simp)
  have hgiven := hkey.names "referred_schema" (by simp)
  constructor
  · have howner : t.id.schema.IsOptionalText := (ht.isTyped_id hd hschema).2.1
    rw [hreported.target_eq, TableId.isPlain, hname.isPlain]
    split
    · rw [hgiven.isPlain]
      rfl
    · rw [howner.isPlain]
      rfl
  · intro n hn
    rw [hreported.targets_eq] at hn
    split at hn
    · obtain ⟨hmem, htruthy⟩ := List.mem_filter.1 hn
      have hnames := (hkey.columns "referred_columns" (by simp)).givenEntries_eq.2
      exact (hnames n hmem).isText htruthy
    · cases hn

end Table.IsAsReported

theorem Table.Reading.isAsReported {n : Name} {t : Table} {ws : List Warning}
    (h : Table.Reading url schema reported n ⟨.ok t, ws⟩) :
    ∃ d, reported.reportedTable? n = some d ∧ t.IsAsReported schema d ∧
      ws = d.keyWarnings schema := by
  cases h with
  | table hd ht => exact ⟨_, hd, ht, rfl⟩

end

end EntityMapping
