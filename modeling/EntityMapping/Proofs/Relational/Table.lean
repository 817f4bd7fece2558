import EntityMapping.Derivation.Draft
import EntityMapping.Relational.Schema
import Mathlib.Data.List.Nodup

/-! # Tables of a schema and their columns

Columns of a table are told apart by their names, and so are the columns of its keys, which are the
same as columns of the table. Whether columns are claimed is therefore a question about names.
-/
namespace EntityMapping

namespace Column

theorem same_iff {c d : Column} : c.same d = true ↔ c.key = d.key := by simp [same]

def isAmong (cs : List Column) (c : Column) : Bool := cs.any c.same

theorem isAmong_iff {cs : List Column} {c : Column} :
    c.isAmong cs = true ↔ ∃ d ∈ cs, c.key = d.key := by
  simp [isAmong, same_iff]

theorem isAmong_of_mem {cs : List Column} {c : Column} (h : c ∈ cs) : c.isAmong cs :=
  isAmong_iff.2 ⟨c, h, rfl⟩

theorem isAmong_of_own? {cs : List Column} {c : Column} (h : (own? cs c).isSome) :
    c.isAmong cs := by
  obtain ⟨d, hd⟩ := Option.isSome_iff_exists.1 h
  exact isAmong_iff.2 ⟨d, (mem_of_own? hd).1, same_iff.1 (Option.filter_eq_some_iff.1 hd).2⟩

@[simp] theorem isAmong_append {cs ds : List Column} {c : Column} :
    c.isAmong (cs ++ ds) ↔ c.isAmong cs ∨ c.isAmong ds := by simp [isAmong, List.any_append]

theorem isAmong_flatMap {α : Type} {f : α → List Column} {l : List α} {c : Column} :
    c.isAmong (l.flatMap f) ↔ ∃ a ∈ l, c.isAmong (f a) := by
  simp [isAmong, List.any_flatMap]

def nameKeys (cs : List Column) : List Name := cs.map fun c => c.name.key

@[simp] theorem nameKeys_nil : nameKeys [] = [] := rfl

@[simp] theorem nameKeys_cons (c : Column) (cs : List Column) :
    nameKeys (c :: cs) = c.name.key :: nameKeys cs := rfl

@[simp] theorem nameKeys_append (cs ds : List Column) :
    nameKeys (cs ++ ds) = nameKeys cs ++ nameKeys ds := List.map_append

theorem mem_nameKeys_of_isAmong {cs : List Column} {c : Column} (h : c.isAmong cs) :
    c.name.key ∈ nameKeys cs := by
  obtain ⟨d, hd, he⟩ := isAmong_iff.1 h
  exact List.mem_map.2 ⟨d, hd, congrArg Column.name he.symm⟩

end Column

namespace Table
open Column
variable {t : Table} {c d : Column}

theorem nameKeys_nodup (t : Table) : (nameKeys t.columns).Nodup := t.names_nodup

theorem column_ext (hc : c ∈ t.columns) (hd : d ∈ t.columns) (h : c.name.key = d.name.key) :
    c = d :=
  List.inj_on_of_nodup_map t.nameKeys_nodup hc hd h

theorem isAmong_of_mem_keyColumns (h : c ∈ t.keyColumns) : c.isAmong t.columns := by
  cases hk : t.primaryKey with
  | none => simp [keyColumns, hk] at h
  | some k => exact isAmong_of_own? (t.key_columns k hk c (by simpa [keyColumns, hk] using h))

theorem isAmong_of_mem_foreignKey {f : ForeignKey} (hf : f ∈ t.foreignKeys) (h : c ∈ f.columns) :
    c.isAmong t.columns :=
  isAmong_of_own? (t.foreign_columns f hf c h)

theorem isAmong_iff_name {cs : List Column} (hcs : ∀ d ∈ cs, d.isAmong t.columns)
    (hc : c.isAmong t.columns) : c.isAmong cs ↔ c.name.key ∈ nameKeys cs := by
  constructor
  · exact mem_nameKeys_of_isAmong
  · intro h
    obtain ⟨d, hd, he⟩ := List.mem_map.1 h
    obtain ⟨d', hdt, hdd⟩ := isAmong_iff.1 (hcs d hd)
    obtain ⟨c', hct, hcc⟩ := isAmong_iff.1 hc
    have hname : c'.name.key = d'.name.key :=
      (congrArg Column.name hcc).symm.trans (he.symm.trans (congrArg Column.name hdd))
    rw [column_ext hct hdt hname] at hcc
    exact isAmong_iff.2 ⟨d, hd, hcc.trans hdd.symm⟩

end Table

namespace Claims
open Column

theorem has_iff {s : Claims} {c : Column} : s.has c ↔ c.name.key ∈ nameKeys s.columns := by
  simp [has, nameKeys, Document.same_iff]

theorem has_eq_false_iff {s : Claims} {c : Column} :
    s.has c = false ↔ c.name.key ∉ nameKeys s.columns := by
  rw [← has_iff, Bool.not_eq_true]

theorem columns_insert_of_free {s : Claims} {c : Column} (h : s.has c = false) :
    (s.insert c).columns = s.columns ++ [c] := by
  simp [insert, h]

theorem mem_nameKeys_insert {s : Claims} {c : Column} {n : Name} :
    n ∈ nameKeys (s.insert c).columns ↔ n = c.name.key ∨ n ∈ nameKeys s.columns := by
  unfold insert
  split
  · rename_i h
    refine ⟨Or.inr, ?_⟩
    rintro (rfl | hn)
    · exact has_iff.1 h
    · exact hn
  · simp [or_comm]

theorem mem_nameKeys_insertAll {s : Claims} {cs : List Column} {n : Name} :
    n ∈ nameKeys (s.insertAll cs).columns ↔ n ∈ nameKeys cs ∨ n ∈ nameKeys s.columns := by
  induction cs generalizing s with
  | nil => simp [insertAll]
  | cons c cs ih =>
    have step : s.insertAll (c :: cs) = (s.insert c).insertAll cs := rfl
    rw [step, ih, mem_nameKeys_insert, nameKeys_cons, List.mem_cons]
    tauto

theorem hasAll_iff {s : Claims} {cs : List Column} :
    s.hasAll cs ↔ ∀ c ∈ cs, c.name.key ∈ nameKeys s.columns := by
  simp [hasAll, has_iff]

theorem claim?_eq_some {s t : Claims} {c : Column} (h : s.claim? c = some t) :
    c.name.key ∉ nameKeys s.columns ∧ t.columns = s.columns ++ [c] := by
  unfold claim? at h
  split at h
  · cases h
  · rename_i hf
    have hfree : s.has c = false := by simpa using hf
    cases h
    exact ⟨has_eq_false_iff.1 hfree, columns_insert_of_free hfree⟩

end Claims

namespace Schema
variable {schema : Schema}

theorem hasTable_iff {id : TableId} :
    schema.hasTable id ↔ ∃ t ∈ schema.tables, t.id.key = id.key := by
  simp [hasTable, TableId.same_iff]

theorem mem_foreignKeys_iff {f : ForeignKey} :
    f ∈ schema.foreignKeys ↔ ∃ t ∈ schema.tables, f ∈ t.foreignKeys := List.mem_flatMap

end Schema
end EntityMapping
