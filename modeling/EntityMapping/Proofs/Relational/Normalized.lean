import EntityMapping.Proofs.Relational.Typed

/-! # Normalized schemas

A schema is normalized by leaving the default catalog and the default schema out of every
identifier. It stays a schema when the identifiers in it can still be told apart, and then the
questions that a run asks about its tables and keys have the same answers.
-/
namespace EntityMapping
open Document

namespace TableId

theorem dropDefault_congr {a b default : Name} (h : a.key = b.key) :
    (dropDefault a default).key = (dropDefault b default).key := by
  have hsame : a.same default = b.same default := by rw [Document.same, Document.same, h]
  unfold dropDefault
  rw [hsame]
  split
  · rfl
  · exact h

theorem dropDefault_dropDefault (a default : Name) :
    dropDefault (dropDefault a default) default = dropDefault a default := by
  unfold dropDefault
  split
  · exact ite_self _
  · rfl

theorem dropDefault_isPlain {a default : Name} (h : a.isPlain) :
    (dropDefault a default).isPlain := by
  unfold dropDefault
  split
  · rfl
  · exact h

end TableId

namespace Settings
variable (s : Settings)

theorem normalize_normalize (id : TableId) : s.normalize (s.normalize id) = s.normalize id := by
  simp only [normalize, TableId.normalized, TableId.dropDefault_dropDefault]

theorem normalize_congr {a b : TableId} (h : a.same b) : (s.normalize a).same (s.normalize b) := by
  rw [TableId.same_iff] at h ⊢
  simp only [TableId.key, TableId.mk.injEq] at h ⊢
  exact ⟨h.1, TableId.dropDefault_congr h.2.1, TableId.dropDefault_congr h.2.2⟩

theorem normalize_isPlain {id : TableId} (h : id.isPlain) : (s.normalize id).isPlain := by
  simp only [TableId.isPlain, Bool.and_eq_true] at h ⊢
  exact ⟨⟨h.1.1, TableId.dropDefault_isPlain h.1.2⟩, TableId.dropDefault_isPlain h.2⟩

end Settings

variable {s : Settings}

def ForeignKey.normalized (s : Settings) (f : ForeignKey) : ForeignKey :=
  { f with table := s.normalize f.table, target := s.normalize f.target }

namespace ForeignKey
variable (f : ForeignKey)

@[simp] theorem normalized_table : (f.normalized s).table = s.normalize f.table := rfl
@[simp] theorem normalized_target : (f.normalized s).target = s.normalize f.target := rfl
@[simp] theorem normalized_columns : (f.normalized s).columns = f.columns := rfl

theorem IsTyped.normalized {f : ForeignKey} (h : f.IsTyped) (s : Settings) :
    (f.normalized s).IsTyped :=
  ⟨h.1.normalize s, h.2.1.normalize s, h.2.2⟩

end ForeignKey

def Table.normalized (s : Settings) (t : Table) : Table :=
  { t with
    id := s.normalize t.id
    foreignKeys := t.foreignKeys.map (ForeignKey.normalized s)
    foreign_owner := by
      refine List.forall_mem_map.2 fun f hf => ?_
      exact s.normalize_congr (t.foreign_owner f hf)
    foreign_columns := List.forall_mem_map.2 t.foreign_columns }

namespace Table
variable (t : Table)

@[simp] theorem normalized_id : (t.normalized s).id = s.normalize t.id := rfl
@[simp] theorem normalized_columns : (t.normalized s).columns = t.columns := rfl
@[simp] theorem normalized_keyColumns : (t.normalized s).keyColumns = t.keyColumns := rfl
@[simp] theorem normalized_foreignKeys :
    (t.normalized s).foreignKeys = t.foreignKeys.map (ForeignKey.normalized s) := rfl

theorem IsTyped.normalized {t : Table} (h : t.IsTyped) (s : Settings) : (t.normalized s).IsTyped :=
  ⟨h.1.normalize s, h.2.1, h.2.2.1,
    List.forall_mem_map.2 fun f hf => (h.2.2.2 f hf).normalized s⟩

end Table

/-- All identifiers in a schema: those of the tables, and those of the owners and the targets of
their keys. -/
def Schema.ids (schema : Schema) : List TableId :=
  schema.tables.flatMap fun t => t.id :: t.foreignKeys.flatMap fun f => [f.table, f.target]

namespace Schema
variable {schema : Schema} {t : Table} {f : ForeignKey}

theorem id_mem_ids (ht : t ∈ schema.tables) : t.id ∈ schema.ids :=
  List.mem_flatMap.2 ⟨t, ht, List.mem_cons_self⟩

theorem ends_mem_ids (hf : f ∈ schema.foreignKeys) :
    ∀ id ∈ [f.table, f.target], id ∈ schema.ids := by
  obtain ⟨t, ht, hft⟩ := mem_foreignKeys_iff.1 hf
  intro id hid
  exact List.mem_flatMap.2 ⟨t, ht, List.mem_cons_of_mem _ (List.mem_flatMap.2 ⟨f, hft, hid⟩)⟩

theorem owner_mem_ids (hf : f ∈ schema.foreignKeys) : f.table ∈ schema.ids :=
  ends_mem_ids hf _ List.mem_cons_self

theorem target_mem_ids (hf : f ∈ schema.foreignKeys) : f.target ∈ schema.ids :=
  ends_mem_ids hf _ (by simp)

end Schema

def Settings.Separates (s : Settings) (schema : Schema) : Prop :=
  ∀ a ∈ schema.ids, ∀ b ∈ schema.ids, (s.normalize a).same (s.normalize b) → a.same b

instance (s : Settings) (schema : Schema) : Decidable (s.Separates schema) :=
  inferInstanceAs (Decidable (∀ a ∈ _, _))

namespace Settings.Separates
variable {schema : Schema} {t : Table} {f g : ForeignKey}

theorem same_iff (h : s.Separates schema) {a b : TableId} (ha : a ∈ schema.ids)
    (hb : b ∈ schema.ids) : (s.normalize a).same (s.normalize b) = a.same b :=
  Bool.eq_iff_iff.2 ⟨h a ha b hb, s.normalize_congr⟩

theorem key_iff (h : s.Separates schema) {a b : TableId} (ha : a ∈ schema.ids)
    (hb : b ∈ schema.ids) : (s.normalize a).key = (s.normalize b).key ↔ a.key = b.key := by
  rw [← TableId.same_iff, ← TableId.same_iff, h.same_iff ha hb]

theorem same_foreignKey (h : s.Separates schema) (hf : f ∈ schema.foreignKeys)
    (hg : g ∈ schema.foreignKeys) : (f.normalized s).same (g.normalized s) = f.same g := by
  have howner := h.key_iff (Schema.owner_mem_ids hf) (Schema.owner_mem_ids hg)
  have htarget := h.key_iff (Schema.target_mem_ids hf) (Schema.target_mem_ids hg)
  simp only [ForeignKey.same, ForeignKey.key, ForeignKey.normalized, Prod.mk.injEq, howner, htarget]

theorem refersOnce (h : s.Separates schema) (ht : t ∈ schema.tables) (hf : f ∈ t.foreignKeys) :
    (t.normalized s).refersOnce (f.normalized s) = t.refersOnce f := by
  have hfs := Schema.mem_foreignKeys_iff.2 ⟨t, ht, hf⟩
  rw [Bool.eq_iff_iff, Table.refersOnce, Table.refersOnce, Table.normalized_foreignKeys,
    List.all_eq_true, List.all_eq_true, List.forall_mem_map]
  refine forall₂_congr fun g hg => ?_
  have hgs := Schema.mem_foreignKeys_iff.2 ⟨t, ht, hg⟩
  rw [h.same_foreignKey hgs hfs, ForeignKey.normalized_target, ForeignKey.normalized_target,
    h.same_iff (Schema.target_mem_ids hgs) (Schema.target_mem_ids hfs)]

end Settings.Separates

def Schema.normalized (s : Settings) (schema : Schema) (h : s.Separates schema) : Schema where
  tables := schema.tables.map (Table.normalized s)
  ids_plain := List.forall_mem_map.2 fun t ht => s.normalize_isPlain (schema.ids_plain t ht)
  ids_nodup := by
    have hids : (schema.tables.map fun t => (s.normalize t.id).key).Nodup := by
      refine schema.ids_nodup.of_map.map_on fun t ht u hu htu => ?_
      have hkey := (h.key_iff (id_mem_ids ht) (id_mem_ids hu)).1 htu
      exact List.inj_on_of_nodup_map schema.ids_nodup ht hu hkey
    rwa [List.map_map]
  targets_plain := by
    refine List.forall_mem_map.2 fun t ht => List.forall_mem_map.2 fun f hf => ?_
    exact s.normalize_isPlain (schema.targets_plain t ht f hf)
  targets_known := by
    refine List.forall_mem_map.2 fun t ht => List.forall_mem_map.2 fun f hf =>
      List.forall_mem_map.2 fun r hr hsame => ?_
    have hf' : f ∈ schema.foreignKeys := mem_foreignKeys_iff.2 ⟨t, ht, hf⟩
    rw [Table.normalized_id, ForeignKey.normalized_target,
      h.same_iff (id_mem_ids hr) (target_mem_ids hf')] at hsame
    exact schema.targets_known t ht f hf r hr hsame

namespace Schema
variable {schema : Schema} {h : s.Separates schema}

@[simp] theorem normalized_tables :
    (schema.normalized s h).tables = schema.tables.map (Table.normalized s) := rfl

theorem normalized_foreignKeys :
    (schema.normalized s h).foreignKeys = schema.foreignKeys.map (ForeignKey.normalized s) := by
  simp only [foreignKeys, normalized_tables, List.flatMap_map, List.map_flatMap,
    Table.normalized_foreignKeys]

theorem hasTable_normalized {f : ForeignKey} (hf : f ∈ schema.foreignKeys) :
    (schema.normalized s h).hasTable (s.normalize f.target) = schema.hasTable f.target := by
  rw [hasTable, hasTable, normalized_tables, List.any_map, Bool.eq_iff_iff, List.any_eq_true,
    List.any_eq_true]
  refine exists_congr fun t => and_congr_right fun ht => ?_
  rw [Function.comp, Table.normalized_id, h.same_iff (id_mem_ids ht) (target_mem_ids hf)]

theorem IsTyped.normalized (hs : schema.IsTyped) : (schema.normalized s h).IsTyped :=
  List.forall_mem_map.2 fun t ht => (hs t ht).normalized s

end Schema
end EntityMapping
