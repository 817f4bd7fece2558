import EntityMapping.Proofs.FirstRepeat
import EntityMapping.Proofs.Relational.Typed
import EntityMapping.Relational.Declaration
import Mathlib.Data.List.Duplicate

/-! # Rules that a declaration can break

Where names and identifiers are texts and keys are made of what belongs to the table, few rules are
left: columns and tables have different names, and what is referred to is there.
-/
namespace EntityMapping

/-- Among entries with different keys, one is found by a test that only its key passes. -/
theorem find?_eq_some_of_nodup {α κ : Type} {key : α → κ} {l : List α} {a : α} {p : α → Bool}
    (hnodup : (l.map key).Nodup) (ha : a ∈ l) (hp : p a)
    (honly : ∀ b ∈ l, p b → key b = key a) : l.find? p = some a := by
  obtain ⟨b, hb⟩ : ∃ b, l.find? p = some b :=
    Option.isSome_iff_exists.1 (List.find?_isSome.2 ⟨a, ha, hp⟩)
  have hmem := List.mem_of_find?_eq_some hb
  rw [hb, List.inj_on_of_nodup_map hnodup hmem ha (honly b hmem (List.find?_some hb))]

section
variable {α κ : Type} [DecidableEq κ] {isPlain : α → Bool} {key : α → κ} {l : List α} {a : α}

theorem firstClashAfter_eq_some {seen : List κ} (h : firstClashAfter isPlain key seen l = some a) :
    ∃ before after, l = before ++ a :: after ∧ firstClashAfter isPlain key seen before = none ∧
      (isPlain a → key a ∈ seen ∨ key a ∈ before.map key) := by
  induction l generalizing seen with
  | nil => cases h
  | cons b l ih =>
    unfold firstClashAfter at h
    split at h
    · rename_i hfresh
      obtain ⟨before, after, rfl, hnone, hseen⟩ := ih h
      refine ⟨b :: before, after, rfl, ?_, fun hp => ?_⟩
      · rwa [firstClashAfter, if_pos hfresh]
      · rcases hseen hp with hmem | hmem
        · rcases List.mem_cons.1 hmem with heq | hmem
          · exact .inr (heq ▸ List.mem_cons_self)
          · exact .inl hmem
        · exact .inr (List.mem_cons_of_mem _ hmem)
    · rename_i hclash
      cases h
      refine ⟨[], l, rfl, rfl, fun hp => .inl ?_⟩
      simpa [hp] using hclash

theorem firstRepeat_of_firstClash (hplain : ∀ b ∈ l, isPlain b)
    (h : firstClash isPlain key l = some a) : ∃ b, FirstRepeat key l b a := by
  obtain ⟨before, after, rfl, hnone, hseen⟩ := firstClashAfter_eq_some h
  rcases hseen (hplain a (by simp)) with hmem | hmem
  · cases hmem
  · obtain ⟨b, hb, hkey⟩ := List.mem_map.1 hmem
    exact ⟨b, before, after, rfl, ((firstClash_eq_none _ _).1 hnone).2, hb, hkey⟩

end

section
variable {α β γ : Type} {g : α → β} {l : List α} {a b : α}

theorem FirstRepeat.of_comp {k : β → γ} (h : FirstRepeat (fun x => k (g x)) l a b)
    (hk : k (g a) = k (g b) → g a = g b) : FirstRepeat g l a b := by
  obtain ⟨before, after, rfl, hnodup, ha, hkey⟩ := h
  refine ⟨before, after, rfl, List.Nodup.of_map k ?_, ha, hk hkey⟩
  rwa [List.map_map]

theorem FirstRepeat.duplicate (h : FirstRepeat g l a b) : (l.map g).Duplicate (g b) := by
  obtain ⟨before, after, rfl, _, ha, heq⟩ := h
  rw [List.duplicate_iff_sublist, List.map_append, List.map_cons]
  have hbefore : [g b].Sublist (before.map g) :=
    List.singleton_sublist.2 (heq ▸ List.mem_map_of_mem ha)
  exact hbefore.append ((List.nil_sublist _).cons_cons _)

theorem FirstRepeat.mem (h : FirstRepeat g l a b) : a ∈ l ∧ b ∈ l := by
  obtain ⟨before, after, rfl, _, ha, _⟩ := h
  exact ⟨List.mem_append_left _ ha, by simp⟩

end

namespace Column
variable {columns : List Column}

theorem mem_names_iff_find? {n : Name} (hn : n.IsText) :
    n ∈ names columns ↔ (find? columns n).isSome := by
  simp only [find?, List.find?_isSome, names, List.mem_map, Document.same_iff]
  refine exists_congr fun c => and_congr_right fun _ => ?_
  exact ⟨congrArg _, fun h => (hn.eq_of_key h.symm).symm⟩

theorem find?_isSome_iff {n : Name} :
    (find? columns n).isSome ↔ ∃ c ∈ columns, c.name.same n := List.find?_isSome

theorem find?_eq_some_of_mem (hnodup : (columns.map fun c => c.name.key).Nodup) {c : Column}
    {n : Name} (hc : c ∈ columns) (hn : c.name.same n) : find? columns n = some c :=
  find?_eq_some_of_nodup hnodup hc hn fun _ _ hd =>
    (Document.same_iff.1 hd).trans (Document.same_iff.1 hn).symm

theorem own?_isSome_iff (hnodup : (columns.map fun c => c.name.key).Nodup) {c : Column} :
    (own? columns c).isSome ↔ ∃ d ∈ columns, d.name.same c.name ∧ c.same d := by
  constructor
  · intro h
    obtain ⟨d, hd⟩ := Option.isSome_iff_exists.1 h
    obtain ⟨hmem, hname⟩ := mem_of_own? hd
    exact ⟨d, hmem, hname, (Option.filter_eq_some_iff.1 hd).2⟩
  · rintro ⟨d, hmem, hname, hsame⟩
    rw [own?, find?_eq_some_of_mem hnodup hmem hname, Option.filter_some, if_pos hsame]
    rfl

theorem own?_isSome_of_mem (hnodup : (columns.map fun c => c.name.key).Nodup) {c : Column}
    (hc : c ∈ columns) : (own? columns c).isSome :=
  (own?_isSome_iff hnodup).2 ⟨c, hc, Document.same_self _, same_self c⟩

end Column

def PrimaryKey.declaration (k : PrimaryKey) : KeyDecl := { columns := k.columns, name := k.name }

def ForeignKey.declaration (f : ForeignKey) : ForeignKeyDecl where
  table := f.table
  target := f.target
  columns := f.columns
  targetColumns := f.targetColumns
  name := f.name

theorem KeyDecl.build_eq_ok_iff {k : KeyDecl} {key : PrimaryKey} :
    k.build = .ok key ↔ key.declaration = k := by
  constructor
  · intro h
    unfold build at h
    split at h
    · cases h
    · cases h
      rfl
  · rintro rfl
    exact dif_neg key.columns_ne

theorem ForeignKeyDecl.build_eq_ok_iff {d : ForeignKeyDecl} {f : ForeignKey} :
    d.build = .ok f ↔ f.declaration = d := by
  constructor
  · intro h
    unfold build at h
    split at h
    · cases h
    · split at h
      · cases h
        rfl
      · cases h
  · rintro rfl
    exact (dif_neg f.columns_ne).trans (dif_pos f.paired)

theorem ForeignKeyDecl.build_isOk {f : ForeignKeyDecl} (hne : f.columns ≠ [])
    (hpaired : f.targetColumns = [] ∨ f.targetColumns.length = f.columns.length) :
    ∃ key, f.build = .ok key := ⟨_, by rw [build, dif_neg hne, dif_pos hpaired]⟩

theorem KeyDecl.build_eq_error {k : KeyDecl} {e : DefinitionError} (h : k.build = .error e) :
    k.columns = [] := by
  unfold build at h
  split at h
  · assumption
  · cases h

section
variable {id : TableId} {columns : List Column} {primaryKey : Option PrimaryKey}
  {foreignKeys : List ForeignKey} {comment : Document} {e : DefinitionError}

theorem Table.build_self (t : Table) :
    Table.build t.id t.columns t.primaryKey t.foreignKeys t.comment = .ok t := by
  have hnames := (firstClash_eq_none _ _).2 ⟨t.names_plain, t.names_nodup⟩
  have hkey : strayColumn? t.columns ((t.primaryKey.map PrimaryKey.columns).getD []) = none := by
    refine strayColumn?_eq_none.2 fun c hc => ?_
    cases hk : t.primaryKey with
    | none =>
      rw [hk] at hc
      cases hc
    | some k =>
      rw [hk] at hc
      exact t.key_columns k hk c hc
  have hforeign : t.foreignKeys.findSome? (ForeignKey.fault? t.id t.columns) = none :=
    List.findSome?_eq_none_iff.2 fun f hf =>
      ForeignKey.fault?_eq_none.2 ⟨t.foreign_owner f hf, t.foreign_columns f hf⟩
  unfold build
  split
  · rename_i hclash
    cases hnames.symm.trans hclash
  · split
    · rename_i hstray
      cases hkey.symm.trans hstray
    · split
      · rename_i hfault
        cases hforeign.symm.trans hfault
      · rfl

theorem Table.build_eq_ok_iff {t : Table} :
    build id columns primaryKey foreignKeys comment = .ok t ↔ t.id = id ∧ t.columns = columns ∧
      t.primaryKey = primaryKey ∧ t.foreignKeys = foreignKeys ∧ t.comment = comment := by
  constructor
  · intro h
    unfold build at h
    split at h
    · cases h
    · split at h
      · cases h
      · split at h
        · cases h
        · cases h
          exact ⟨rfl, rfl, rfl, rfl, rfl⟩
  · rintro ⟨rfl, rfl, rfl, rfl, rfl⟩
    exact t.build_self

/-- A table with keys of its own over its own columns can only have two columns of one name. -/
theorem Table.firstRepeat_of_build (hnames : ∀ c ∈ columns, c.name.IsText)
    (hkey : ∀ k ∈ primaryKey, ∀ c ∈ k.columns, c ∈ columns)
    (hforeign : ∀ f ∈ foreignKeys, f.table = id ∧ ∀ c ∈ f.columns, c ∈ columns)
    (h : Table.build id columns primaryKey foreignKeys comment = .error e) :
    ∃ b c, FirstRepeat Column.name columns b c ∧ e = .repeatedColumn c.name id := by
  unfold build at h
  split at h
  · rename_i c hclash
    cases h
    obtain ⟨b, hrepeat⟩ := firstRepeat_of_firstClash (fun c hc => (hnames c hc).isPlain) hclash
    obtain ⟨hb, hc⟩ := hrepeat.mem
    refine ⟨b, c, hrepeat.of_comp (hnames b hb).eq_of_key, ?_⟩
    rw [DefinitionError.about, if_pos (hnames c hc).isPlain]
  · rename_i hclash
    have hown : ∀ c ∈ columns, (Column.own? columns c).isSome := fun c =>
      Column.own?_isSome_of_mem ((firstClash_eq_none _ _).1 hclash).2
    have hstray : strayColumn? columns ((primaryKey.map PrimaryKey.columns).getD []) = none := by
      refine strayColumn?_eq_none.2 fun c hc => hown c ?_
      cases primaryKey with
      | none => cases hc
      | some k => exact hkey k rfl c hc
    have hfault : foreignKeys.findSome? (ForeignKey.fault? id columns) = none := by
      refine List.findSome?_eq_none_iff.2 fun f hf => ForeignKey.fault?_eq_none.2 ?_
      obtain ⟨howner, hcolumns⟩ := hforeign f hf
      exact ⟨howner ▸ TableId.same_self _, fun c hc => hown c (hcolumns c hc)⟩
    split at h
    · rename_i hsome
      cases hstray.symm.trans hsome
    · split at h
      · rename_i hsome
        cases hfault.symm.trans hsome
      · cases h

theorem Schema.build_tables (schema : Schema) : Schema.build schema.tables = .ok schema := by
  have hids := (firstClash_eq_none _ _).2 ⟨schema.ids_plain, schema.ids_nodup⟩
  have htargets : (schema.tables.findSome? fun t => t.foreignKeys.findSome? fun f =>
      f.referenceFault? schema.tables) = none :=
    List.findSome?_eq_none_iff.2 fun t ht => List.findSome?_eq_none_iff.2 fun f hf =>
      ForeignKey.referenceFault?_eq_none.2
        ⟨schema.targets_plain t ht f hf, schema.targets_known t ht f hf⟩
  unfold build
  split
  · rename_i hclash
    cases hids.symm.trans hclash
  · split
    · rename_i hfault
      cases htargets.symm.trans hfault
    · rfl

theorem Schema.build_eq_ok_iff {tables : List Table} {schema : Schema} :
    build tables = .ok schema ↔ schema.tables = tables := by
  constructor
  · intro h
    unfold build at h
    split at h
    · cases h
    · split at h
      · cases h
      · cases h
        rfl
  · rintro rfl
    exact schema.build_tables

def ForeignKey.unknownIn (f : ForeignKey) (r : Table) : List Name :=
  if r.id = f.target then f.targetColumns.filter fun n => n ∉ Column.names r.columns else []

def Schema.unknownTargets (tables : List Table) : List (ForeignKey × Name) :=
  tables.flatMap fun t => t.foreignKeys.flatMap fun f => tables.flatMap fun r =>
    (f.unknownIn r).map fun n => (f, n)

/-- The rule that tables break first: identifiers are looked at before references. -/
inductive Schema.FirstFault (tables : List Table) : DefinitionError → Prop
  | repeatedTable {t u : Table} (h : FirstRepeat Table.id tables t u) :
    FirstFault tables (.repeatedTable u.id)
  | unknownTarget {f : ForeignKey} {n : Name} (hids : (tables.map Table.id).Nodup)
    (h : (unknownTargets tables).head? = some (f, n)) : FirstFault tables (.unknownTarget f n)

theorem findSome?_congr {α β : Type} {p q : α → Option β} {l : List α} (h : ∀ a ∈ l, p a = q a) :
    l.findSome? p = l.findSome? q := by
  rw [← List.head?_filterMap, ← List.head?_filterMap, List.filterMap_congr h]

theorem targetFault?_eq {f : ForeignKey} {r : Table} (hid : r.id.IsTyped)
    (hnames : ∀ n ∈ f.targetColumns, n.IsText) :
    targetFault? f r = ((f.unknownIn r).map fun n => (f, n)).head?.map
      fun p => .unknownTarget p.1 p.2 := by
  have hsame : r.id.same f.target = true ↔ r.id = f.target :=
    ⟨fun h => hid.eq_of_key (TableId.same_iff.1 h), fun h => h ▸ TableId.same_self _⟩
  have hunknown : (f.targetColumns.filter fun n => (r.column? n).isNone) =
      f.targetColumns.filter fun n => n ∉ Column.names r.columns := by
    refine List.filter_congr fun n hn => ?_
    rw [Bool.eq_iff_iff, decide_eq_true_iff, Column.mem_names_iff_find? (hnames n hn),
      Option.not_isSome_iff_eq_none, Option.isNone_iff_eq_none]
    rfl
  rw [targetFault?, ForeignKey.unknownIn, List.head?_map, Option.map_map]
  simp only [hsame]
  split
  · rw [← hunknown, List.head?_filter]
    refine Option.map_congr fun n hn => ?_
    rw [DefinitionError.about, if_pos (hnames n (List.mem_of_find?_eq_some hn)).isPlain]
    rfl
  · rfl

theorem Schema.referenceFaults_eq {tables : List Table} (hids : ∀ t ∈ tables, t.id.IsTyped)
    (htargets : ∀ t ∈ tables, ∀ f ∈ t.foreignKeys,
      f.target.isPlain ∧ ∀ n ∈ f.targetColumns, n.IsText) :
    (tables.findSome? fun t => t.foreignKeys.findSome? fun f => f.referenceFault? tables) =
      (unknownTargets tables).head?.map fun p => .unknownTarget p.1 p.2 := by
  rw [unknownTargets, List.head?_flatMap, List.map_findSome?]
  refine findSome?_congr fun t ht => ?_
  rw [Function.comp_apply, List.head?_flatMap, List.map_findSome?]
  refine findSome?_congr fun f hf => ?_
  obtain ⟨hplain, hnames⟩ := htargets t ht f hf
  rw [Function.comp_apply, List.head?_flatMap, List.map_findSome?, ForeignKey.referenceFault?,
    if_pos hplain]
  exact findSome?_congr fun r hr => targetFault?_eq (hids r hr) hnames

/-- Tables with usable identifiers and references are refused for the rule that they break first. -/
theorem Schema.firstFault_of_build {tables : List Table} (hids : ∀ t ∈ tables, t.id.IsTyped)
    (htargets : ∀ t ∈ tables, ∀ f ∈ t.foreignKeys,
      f.target.isPlain ∧ ∀ n ∈ f.targetColumns, n.IsText)
    (h : Schema.build tables = .error e) : FirstFault tables e := by
  unfold build at h
  split at h
  · rename_i t hclash
    cases h
    obtain ⟨u, hrepeat⟩ := firstRepeat_of_firstClash (fun t ht => (hids t ht).isPlain) hclash
    obtain ⟨hu, ht⟩ := hrepeat.mem
    rw [if_pos (hids t ht).isPlain]
    exact .repeatedTable (hrepeat.of_comp (hids u hu).eq_of_key)
  · rename_i hclash
    have hnodup : (tables.map Table.id).Nodup := by
      refine List.Nodup.of_map TableId.key ?_
      rw [List.map_map]
      exact ((firstClash_eq_none _ _).1 hclash).2
    split at h
    · rename_i hfault
      cases h
      rw [referenceFaults_eq hids htargets] at hfault
      obtain ⟨⟨f, n⟩, hhead, rfl⟩ := Option.map_eq_some_iff.1 hfault
      exact .unknownTarget hnodup hhead
    · cases h

/-- A schema of tables with usable identifiers can only list two tables under one, or refer to a
column that is not there. -/
theorem Schema.build_eq_error {tables : List Table} (hids : ∀ t ∈ tables, t.id.IsTyped)
    (htargets : ∀ t ∈ tables, ∀ f ∈ t.foreignKeys,
      f.target.isPlain ∧ ∀ n ∈ f.targetColumns, n.IsText)
    (h : Schema.build tables = .error e) :
    (∃ id, (tables.map Table.id).Duplicate id ∧ e = .repeatedTable id) ∨
      ∃ t ∈ tables, ∃ f ∈ t.foreignKeys, ∃ r ∈ tables, r.id = f.target ∧
        ∃ n ∈ f.targetColumns, n ∉ Column.names r.columns ∧ e = .unknownTarget f n := by
  rcases firstFault_of_build hids htargets h with hrepeat | @⟨f, n, _, hhead⟩
  · exact .inl ⟨_, hrepeat.duplicate, rfl⟩
  · obtain ⟨t, ht, hmem⟩ := List.mem_flatMap.1 (List.mem_of_mem_head? hhead)
    obtain ⟨_, hf, hmem⟩ := List.mem_flatMap.1 hmem
    obtain ⟨r, hr, hmem⟩ := List.mem_flatMap.1 hmem
    obtain ⟨_, hn, heq⟩ := List.mem_map.1 hmem
    cases heq
    rw [ForeignKey.unknownIn] at hn
    split at hn
    · rename_i hid
      obtain ⟨hmem, hunknown⟩ := List.mem_filter.1 hn
      exact .inr ⟨t, ht, f, hf, r, hr, hid, n, hmem, of_decide_eq_true hunknown, rfl⟩
    · cases hn

end
end EntityMapping
