import EntityMapping.Proofs.Relational.Declaration

/-! # Which declarations make a schema

A declaration makes a schema exactly when it is well formed. A schema keeps what was declared, and
it is what its own declaration makes, so that the rules hold in every schema. They are what its
lookups rely on: a table is found by its identifier and a column by its name.
-/
namespace EntityMapping

def Table.declaration (t : Table) : TableDecl where
  id := t.id
  columns := t.columns
  primaryKey := t.primaryKey.map PrimaryKey.declaration
  foreignKeys := t.foreignKeys.map ForeignKey.declaration
  comment := t.comment

def Schema.declaration (schema : Schema) : List TableDecl := schema.tables.map Table.declaration

/-- The table has a column of that name, and it is the same in all attributes. -/
def TableDecl.HasColumn (t : TableDecl) (c : Column) : Prop :=
  ∃ d ∈ t.columns, d.name.same c.name ∧ c.same d

/-- The rules of a table and its keys, whose columns can be looked up. -/
structure TableDecl.IsWellFormed (t : TableDecl) : Prop where
  names_plain : ∀ c ∈ t.columns, c.name.isPlain
  names_distinct : t.columns.Pairwise fun c d => ¬ c.name.same d.name
  key_nonempty : ∀ k ∈ t.primaryKey, k.columns ≠ []
  key_columns : ∀ k ∈ t.primaryKey, ∀ c ∈ k.columns, t.HasColumn c
  foreign_nonempty : ∀ f ∈ t.foreignKeys, f.columns ≠ []
  foreign_paired : ∀ f ∈ t.foreignKeys,
    f.targetColumns = [] ∨ f.targetColumns.length = f.columns.length
  foreign_owner : ∀ f ∈ t.foreignKeys, f.table.same t.id
  foreign_columns : ∀ f ∈ t.foreignKeys, ∀ c ∈ f.columns, t.HasColumn c

/-- The rules of tables that make a schema together, in which each can be looked up. -/
structure Schema.IsWellFormed (tables : List TableDecl) : Prop where
  each : ∀ t ∈ tables, t.IsWellFormed
  ids_plain : ∀ t ∈ tables, t.id.isPlain
  ids_distinct : tables.Pairwise fun t u => ¬ t.id.same u.id
  targets_plain : ∀ t ∈ tables, ∀ f ∈ t.foreignKeys, f.target.isPlain
  targets_known : ∀ t ∈ tables, ∀ f ∈ t.foreignKeys, ∀ r ∈ tables, r.id.same f.target →
    ∀ n ∈ f.targetColumns, ∃ c ∈ r.columns, c.name.same n

theorem Column.names_distinct_iff {cs : List Column} :
    (cs.Pairwise fun c d => ¬ c.name.same d.name) ↔ (cs.map fun c => c.name.key).Nodup := by
  rw [List.Nodup, List.pairwise_map]
  simp only [Document.same_iff, ne_eq]

theorem TableId.distinct_iff {α : Type} {id : α → TableId} {l : List α} :
    (l.Pairwise fun t u => ¬ (id t).same (id u)) ↔ (l.map fun t => (id t).key).Nodup := by
  rw [List.Nodup, List.pairwise_map]
  simp only [same_iff, ne_eq]

section
variable {ε α β : Type}

theorem except_ok_bind (a : α) (f : α → Except ε β) : ((.ok a : Except ε α) >>= f) = f a := rfl

theorem except_bind_eq_ok {x : Except ε α} {f : α → Except ε β} {b : β} :
    (x >>= f) = .ok b ↔ ∃ a, x = .ok a ∧ f a = .ok b := by
  cases x <;> simp [bind, Except.bind]

variable {f : α → Except ε β} {g : β → α} {l : List α} {bs : List β}

/-- Where `g` tells what `f` was given, it does so for lists. -/
theorem mapM_eq_ok_iff_map (h : ∀ a b, f a = .ok b ↔ g b = a) :
    l.mapM f = .ok bs ↔ bs.map g = l := by
  induction l generalizing bs with
  | nil =>
    rw [List.map_eq_nil_iff]
    exact ⟨fun hnil => (Except.ok.inj hnil).symm, fun hnil => congrArg Except.ok hnil.symm⟩
  | cons a l ih =>
    rw [List.mapM_cons]
    constructor
    · intro hok
      obtain ⟨b, hb, hok⟩ := except_bind_eq_ok.1 hok
      obtain ⟨rest, hrest, hok⟩ := except_bind_eq_ok.1 hok
      obtain rfl := Except.ok.inj hok
      rw [List.map_cons, (h a b).1 hb, ih.1 hrest]
    · intro hmap
      cases bs with
      | nil => cases hmap
      | cons b rest =>
        rw [List.map_cons, List.cons.injEq] at hmap
        rw [(h a b).2 hmap.1, ih.2 hmap.2]
        rfl

theorem optionMapM_eq_ok_iff_map (h : ∀ a b, f a = .ok b ↔ g b = a) {o : Option α}
    {b : Option β} : o.mapM f = .ok b ↔ b.map g = o := by
  cases o with
  | none =>
    rw [Option.mapM_none, Option.map_eq_none_iff]
    exact ⟨fun hnone => (Except.ok.inj hnone).symm, fun hnone => congrArg Except.ok hnone.symm⟩
  | some a =>
    rw [Option.mapM_some, Option.map_eq_some_iff]
    constructor
    · intro hok
      cases ha : f a with
      | error e =>
        rw [ha] at hok
        cases hok
      | ok b' =>
        rw [ha] at hok
        exact ⟨b', (Except.ok.inj hok).symm, (h a b').1 ha⟩
    · rintro ⟨b', rfl, hb⟩
      rw [(h a b').2 hb]
      rfl

theorem exists_map_eq (h : ∀ a ∈ l, ∃ b, g b = a) : ∃ bs : List β, bs.map g = l := by
  induction l with
  | nil => exact ⟨[], rfl⟩
  | cons a l ih =>
    obtain ⟨ha, hl⟩ := List.forall_mem_cons.1 h
    obtain ⟨b, rfl⟩ := ha
    obtain ⟨bs, rfl⟩ := ih hl
    exact ⟨b :: bs, rfl⟩

end

theorem TableDecl.build_eq_ok_iff {d : TableDecl} {t : Table} :
    d.build = .ok t ↔ t.declaration = d := by
  have hkey : ∀ key, d.primaryKey.mapM KeyDecl.build = .ok key ↔
      key.map PrimaryKey.declaration = d.primaryKey :=
    fun _ => optionMapM_eq_ok_iff_map fun _ _ => KeyDecl.build_eq_ok_iff
  have hforeign : ∀ fs, d.foreignKeys.mapM ForeignKeyDecl.build = .ok fs ↔
      fs.map ForeignKey.declaration = d.foreignKeys :=
    fun _ => mapM_eq_ok_iff_map fun _ _ => ForeignKeyDecl.build_eq_ok_iff
  constructor
  · intro h
    obtain ⟨key, hk, h⟩ := except_bind_eq_ok.1 h
    obtain ⟨fs, hfs, h⟩ := except_bind_eq_ok.1 h
    obtain ⟨hid, hcolumns, rfl, rfl, hcomment⟩ := Table.build_eq_ok_iff.1 h
    rw [Table.declaration, hid, hcolumns, (hkey _).1 hk, (hforeign _).1 hfs, hcomment]
  · rintro rfl
    rw [build, (hkey t.primaryKey).2 rfl, except_ok_bind, (hforeign t.foreignKeys).2 rfl]
    exact t.build_self

theorem Schema.declare_eq_ok_iff {tables : List TableDecl} {schema : Schema} :
    declare tables = .ok schema ↔ schema.declaration = tables := by
  have htables : ∀ ts, tables.mapM TableDecl.build = .ok ts ↔
      ts.map Table.declaration = tables :=
    fun _ => mapM_eq_ok_iff_map fun _ _ => TableDecl.build_eq_ok_iff
  constructor
  · intro h
    obtain ⟨ts, hts, h⟩ := except_bind_eq_ok.1 h
    rw [declaration, build_eq_ok_iff.1 h, (htables ts).1 hts]
  · rintro rfl
    rw [declare, (htables schema.tables).2 rfl]
    exact schema.build_tables

namespace TableDecl
variable {d : TableDecl}

theorem isWellFormed_declaration (t : Table) : t.declaration.IsWellFormed := by
  have hown : ∀ c, (Column.own? t.columns c).isSome → t.declaration.HasColumn c :=
    fun c hc => (Column.own?_isSome_iff t.names_nodup).1 hc
  refine ⟨t.names_plain, ?_, fun k hk => ?_, fun k hk c hc => ?_, fun f hf => ?_, fun f hf => ?_,
    fun f hf => ?_, fun f hf c hc => ?_⟩
  · exact Column.names_distinct_iff.2 t.names_nodup
  · obtain ⟨key, _, rfl⟩ := Option.map_eq_some_iff.1 hk
    exact key.columns_ne
  · obtain ⟨key, hkey, rfl⟩ := Option.map_eq_some_iff.1 hk
    exact hown c (t.key_columns key hkey c hc)
  · obtain ⟨key, _, rfl⟩ := List.mem_map.1 hf
    exact key.columns_ne
  · obtain ⟨key, _, rfl⟩ := List.mem_map.1 hf
    exact key.paired
  · obtain ⟨key, hkey, rfl⟩ := List.mem_map.1 hf
    exact t.foreign_owner key hkey
  · obtain ⟨key, hkey, rfl⟩ := List.mem_map.1 hf
    exact hown c (t.foreign_columns key hkey c hc)

theorem IsWellFormed.exists_keys (h : d.IsWellFormed) :
    (∃ key : Option PrimaryKey, key.map PrimaryKey.declaration = d.primaryKey) ∧
      ∃ fs : List ForeignKey, fs.map ForeignKey.declaration = d.foreignKeys := by
  constructor
  · cases hk : d.primaryKey with
    | none => exact ⟨none, rfl⟩
    | some k => exact ⟨some ⟨k.columns, k.name, h.key_nonempty k hk⟩, rfl⟩
  · refine exists_map_eq fun f hf => ?_
    exact ⟨⟨f.table, f.target, f.columns, f.targetColumns, f.name, h.foreign_nonempty f hf,
      h.foreign_paired f hf⟩, rfl⟩

theorem IsWellFormed.exists_table (h : d.IsWellFormed) : ∃ t : Table, t.declaration = d := by
  rcases d with ⟨id, columns, _, _, comment⟩
  obtain ⟨⟨primaryKey, rfl⟩, foreignKeys, rfl⟩ := h.exists_keys
  have hnodup := Column.names_distinct_iff.1 h.names_distinct
  have hown : ∀ c, TableDecl.HasColumn _ c → (Column.own? columns c).isSome :=
    fun c hc => (Column.own?_isSome_iff hnodup).2 hc
  exact ⟨{
    id, columns, primaryKey, foreignKeys, comment
    names_plain := h.names_plain
    names_nodup := hnodup
    key_columns := fun k hk c hc =>
      hown c (h.key_columns k.declaration (Option.mem_map_of_mem _ hk) c hc)
    foreign_owner := fun f hf => h.foreign_owner f.declaration (List.mem_map_of_mem hf)
    foreign_columns := fun f hf c hc =>
      hown c (h.foreign_columns f.declaration (List.mem_map_of_mem hf) c hc) }, rfl⟩

end TableDecl

namespace Schema

theorem isWellFormed_declaration (schema : Schema) : IsWellFormed schema.declaration := by
  refine ⟨?_, ?_, ?_, ?_, ?_⟩
  · exact List.forall_mem_map.2 fun t _ => TableDecl.isWellFormed_declaration t
  · exact List.forall_mem_map.2 schema.ids_plain
  · rw [@TableId.distinct_iff _ TableDecl.id, declaration, List.map_map]
    exact schema.ids_nodup
  · refine List.forall_mem_map.2 fun t ht => List.forall_mem_map.2 fun f hf => ?_
    exact schema.targets_plain t ht f hf
  · refine List.forall_mem_map.2 fun t ht => List.forall_mem_map.2 fun f hf =>
      List.forall_mem_map.2 fun r hr hsame n hn => ?_
    exact Column.find?_isSome_iff.1 (schema.targets_known t ht f hf r hr hsame n hn)

theorem IsWellFormed.exists_schema {tables : List TableDecl} (h : IsWellFormed tables) :
    ∃ schema : Schema, schema.declaration = tables := by
  obtain ⟨ts, rfl⟩ : ∃ ts : List Table, ts.map Table.declaration = tables :=
    exists_map_eq fun d hd => (h.each d hd).exists_table
  have htable : ∀ t ∈ ts, t.declaration ∈ ts.map Table.declaration :=
    fun t ht => List.mem_map_of_mem ht
  have hforeign : ∀ t : Table, ∀ f ∈ t.foreignKeys, f.declaration ∈ t.declaration.foreignKeys :=
    fun t f hf => List.mem_map_of_mem hf
  refine ⟨{
    tables := ts
    ids_plain := fun t ht => h.ids_plain t.declaration (htable t ht)
    ids_nodup := by
      have hids := TableId.distinct_iff.1 h.ids_distinct
      rwa [List.map_map] at hids
    targets_plain := fun t ht f hf =>
      h.targets_plain t.declaration (htable t ht) f.declaration (hforeign t f hf)
    targets_known := fun t ht f hf r hr hsame n hn => Column.find?_isSome_iff.2
      (h.targets_known t.declaration (htable t ht) f.declaration (hforeign t f hf)
        r.declaration (htable r hr) hsame n hn) }, rfl⟩

end Schema

theorem Document.isPlain_key (d : Document) : d.key.isPlain = d.isPlain := by
  cases d <;> rfl

theorem Document.isPlain_of_same {a b : Document} (h : a.same b) (ha : a.isPlain) :
    b.isPlain := by
  rwa [← isPlain_key, ← same_iff.1 h, isPlain_key]

def Table.HasInKey (t : Table) (c : Column) : Prop :=
  c ∈ t.keyColumns ∨ ∃ f ∈ t.foreignKeys, c ∈ f.columns

/-- A table is found by its identifier and a column by its name, also one of a key, which is the
same as the column that is found. The foreign keys are those declared, table after table. -/
structure Schema.IsIndexed (schema : Schema) : Prop where
  table_eq : ∀ t ∈ schema.tables, schema.table t.id = .ok (some t)
  column_eq : ∀ t ∈ schema.tables, ∀ c ∈ t.columns, t.column c.name = .ok (some c)
  key_column : ∀ t ∈ schema.tables, ∀ c, t.HasInKey c →
    ∃ d, t.column c.name = .ok (some d) ∧ d.same c ∧ (t.IsTyped → d = c)
  foreignKeys_eq : schema.foreignKeys.map ForeignKey.declaration =
    schema.declaration.flatMap TableDecl.foreignKeys

namespace Table
variable {t : Table} {c : Column}

theorem column_of_mem (hc : c ∈ t.columns) {n : Name} (hn : c.name.same n) :
    t.column n = .ok (some c) := by
  have hplain : n.isPlain := Document.isPlain_of_same hn (t.names_plain c hc)
  rw [column, Document.asKey_eq_ok.2 ⟨hplain, rfl⟩, except_ok_bind, column?,
    Column.find?_eq_some_of_mem t.names_nodup hc hn]
  rfl

theorem own?_isSome_of_hasInKey (h : t.HasInKey c) : (Column.own? t.columns c).isSome := by
  rcases h with hc | ⟨f, hf, hc⟩
  · cases hk : t.primaryKey with
    | none =>
      rw [keyColumns, hk] at hc
      cases hc
    | some k =>
      rw [keyColumns, hk] at hc
      exact t.key_columns k hk c hc
  · exact t.foreign_columns f hf c hc

theorem IsTyped.of_hasInKey (ht : t.IsTyped) (h : t.HasInKey c) : c.IsTyped := by
  rcases h with hc | ⟨f, hf, hc⟩
  · exact ht.2.2.1 c hc
  · exact (ht.2.2.2 f hf).2.2.1 c hc

theorem column_of_hasInKey (h : t.HasInKey c) :
    ∃ d, t.column c.name = .ok (some d) ∧ d.same c ∧ (t.IsTyped → d = c) := by
  obtain ⟨d, hd, hname, hsame⟩ := (Column.own?_isSome_iff t.names_nodup).1
    (own?_isSome_of_hasInKey h)
  have hkey : d.key = c.key := (Column.same_iff.1 hsame).symm
  refine ⟨d, column_of_mem hd hname, Column.same_iff.2 hkey, fun ht => ?_⟩
  exact (ht.2.1 d hd).eq_of_key (ht.of_hasInKey h) hkey

end Table

namespace Schema

theorem mem_of_table? {schema : Schema} {id : TableId} {t : Table}
    (h : schema.table? id = some t) : t ∈ schema.tables ∧ t.id.same id :=
  ⟨List.mem_of_find?_eq_some h, by simpa using List.find?_some h⟩

theorem table_of_mem (schema : Schema) {t : Table} (ht : t ∈ schema.tables) :
    schema.table t.id = .ok (some t) := by
  have hfind : schema.table? t.id = some t :=
    find?_eq_some_of_nodup schema.ids_nodup ht (TableId.same_self _) fun _ _ hu =>
      TableId.same_iff.1 hu
  rw [table, TableId.asKey, if_pos (schema.ids_plain t ht), except_ok_bind, hfind]
  rfl

theorem isIndexed (schema : Schema) : schema.IsIndexed := by
  refine ⟨fun t ht => schema.table_of_mem ht, fun t _ c hc => ?_, fun t _ c h => ?_, ?_⟩
  · exact Table.column_of_mem hc (Document.same_self _)
  · exact Table.column_of_hasInKey h
  · rw [foreignKeys, declaration, List.map_flatMap, List.flatMap_map]
    rfl

/-- A declaration makes a schema exactly when it is well formed, and the schema is the one that
declares the same. In every schema all tables, columns and foreign keys are found. -/
theorem declare_isOk_iff :
    (∀ tables, ((∃ schema, declare tables = .ok schema) ↔ IsWellFormed tables) ∧
      ∀ schema, declare tables = .ok schema ↔ schema.declaration = tables) ∧
    ∀ schema : Schema, schema.IsIndexed := by
  refine ⟨fun tables => ⟨⟨?_, ?_⟩, fun schema => declare_eq_ok_iff⟩, isIndexed⟩
  · rintro ⟨schema, h⟩
    obtain rfl := declare_eq_ok_iff.1 h
    exact schema.isWellFormed_declaration
  · intro h
    obtain ⟨schema, hschema⟩ := h.exists_schema
    exact ⟨schema, declare_eq_ok_iff.2 hschema⟩

end Schema
end EntityMapping
