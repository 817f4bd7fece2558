import EntityMapping.Derivation.TableBinding
import Mathlib.Data.List.Nodup

/-! # Entities are found by name and by table

In a sound registry no two entities share a name or a table, every entity is found by the table
that it was derived from, and the imports are the names of the entities. Entering an entity of a new
table keeps a registry sound.
-/
namespace EntityMapping

@[simp] theorem Entity.freeze_name (e : Entity) : e.freeze.name = e.name := rfl

@[simp] theorem Entity.freeze_table (e : Entity) : e.freeze.table = e.table := rfl

namespace Registry

def nameKeys (r : Registry) : List Name := r.entities.map fun e => e.name.key

def tableKeys (r : Registry) : List TableId := r.entities.map fun e => e.table.id.key

structure Sound (r : Registry) : Prop where
  names_nodup : r.nameKeys.Nodup
  tables_nodup : r.tableKeys.Nodup
  located : ∀ e ∈ r.entities, r.byTable.get? e.table.id.key = some e.name
  imports_eq : r.imports = r.names.map fun n => (n, n)

theorem sound_empty : Sound {} :=
  ⟨List.nodup_nil, List.nodup_nil, fun _ he => absurd he List.not_mem_nil, rfl⟩

variable {r r' : Registry} {e : Entity} {n : Name}

theorem get?_eq_none_iff : r.get? n = none ↔ n.key ∉ r.nameKeys := by
  simp [get?, nameKeys, Document.same_iff]

theorem mem_of_get?_eq_some (h : r.get? n = some e) : e ∈ r.entities ∧ e.name.key = n.key := by
  have hs := List.find?_some h
  exact ⟨List.mem_of_find?_eq_some h, Document.same_iff.1 hs⟩

theorem get?_eq_some_iff (hr : r.nameKeys.Nodup) :
    r.get? n = some e ↔ e ∈ r.entities ∧ e.name.key = n.key := by
  refine ⟨mem_of_get?_eq_some, ?_⟩
  rintro ⟨he, hn⟩
  cases hg : r.get? n with
  | none => exact absurd (List.mem_map.2 ⟨e, he, hn⟩) (get?_eq_none_iff.1 hg)
  | some d =>
    obtain ⟨hd, hdn⟩ := mem_of_get?_eq_some hg
    rw [List.inj_on_of_nodup_map hr hd he (hdn.trans hn.symm)]

theorem mem_of_ofTable?_eq_some {id : TableId} (h : r.ofTable? id = some e) : e ∈ r.entities := by
  obtain ⟨n, _, hn⟩ := Option.bind_eq_some_iff.1 h
  exact (mem_of_get?_eq_some hn).1

theorem Sound.eq_of_name_eq {d : Entity} (hr : r.Sound) (hd : d ∈ r.entities)
    (he : e ∈ r.entities) (h : d.name = e.name) : d = e :=
  List.inj_on_of_nodup_map hr.names_nodup hd he (congrArg Document.key h)

theorem Sound.get?_name (hr : r.Sound) (he : e ∈ r.entities) : r.get? e.name = some e :=
  (get?_eq_some_iff hr.names_nodup).2 ⟨he, rfl⟩

theorem Sound.ofTable?_eq (hr : r.Sound) (he : e ∈ r.entities) {id : TableId}
    (h : e.table.id.key = id.key) : r.ofTable? id = some e := by
  rw [ofTable?, ← h, hr.located e he]
  exact hr.get?_name he

theorem Sound.get?_imports_eq_none (hr : r.Sound) (h : n.key ∉ r.nameKeys) :
    r.imports.get? n = none := by
  rw [hr.imports_eq, Named.get?, Option.map_eq_none_iff, List.find?_eq_none]
  intro x hx hs
  obtain ⟨m, hm, rfl⟩ := List.mem_map.1 hx
  obtain ⟨d, hd, rfl⟩ := List.mem_map.1 hm
  exact h (List.mem_map.2 ⟨d, hd, Document.same_iff.1 hs⟩)

theorem enter_eq_ok : r.enter e = .ok r' ↔ e.name.key ∉ r.nameKeys ∧
    r' = { entities := r.entities ++ [e.freeze]
           byTable := r.byTable.set e.table.id.key e.name
           imports := r.imports.set e.name e.name } := by
  rw [← get?_eq_none_iff]
  cases hg : r.get? e.name with
  | none =>
    simp only [enter, register, Entity.freeze_name, Entity.freeze_table, hg, true_and,
      Except.ok.injEq, addImport]
    exact eq_comm
  | some d => simp [enter, register, hg]

theorem enter_eq_error {d : Entity} (h : r.get? e.name = some d) :
    r.enter e = .error (.duplicateName e.name e.table.id d.table.id) := by
  simp [enter, register, h]

theorem nameKeys_enter (h : r.enter e = .ok r') : r'.nameKeys = r.nameKeys ++ [e.name.key] := by
  obtain ⟨_, rfl⟩ := enter_eq_ok.1 h
  simp [nameKeys]

theorem tableKeys_enter (h : r.enter e = .ok r') :
    r'.tableKeys = r.tableKeys ++ [e.table.id.key] := by
  obtain ⟨_, rfl⟩ := enter_eq_ok.1 h
  simp [tableKeys]

theorem sound_enter (hr : r.Sound) (h : r.enter e = .ok r') (ht : e.table.id.key ∉ r.tableKeys) :
    r'.Sound := by
  have hn := (enter_eq_ok.1 h).1
  refine ⟨?_, ?_, ?_, ?_⟩
  · rw [nameKeys_enter h]
    exact hr.names_nodup.append (List.nodup_singleton _) (by simpa using hn)
  · rw [tableKeys_enter h]
    exact hr.tables_nodup.append (List.nodup_singleton _) (by simpa using ht)
  · obtain ⟨_, rfl⟩ := enter_eq_ok.1 h
    intro d hd
    rw [Entries.get?_set]
    rcases List.mem_append.1 hd with hd | hd
    · rw [if_neg, hr.located d hd]
      intro he
      exact ht (List.mem_map.2 ⟨d, hd, he.symm⟩)
    · obtain rfl := List.mem_singleton.1 hd
      exact if_pos rfl
  · obtain ⟨_, rfl⟩ := enter_eq_ok.1 h
    rw [Named.set_of_get?_eq_none (hr.get?_imports_eq_none hn), hr.imports_eq]
    simp [names]

/-- An update replaces the one entity that has the name and keeps the places of the others. -/
theorem entities_update {ds es : List Entity} {e' : Entity} (hr : r.nameKeys.Nodup)
    (he : r.entities = ds ++ e :: es) (hn : e.name = e'.name) :
    (r.update e').entities = ds ++ e' :: es := by
  have hnd : (ds.map (fun d => d.name.key) ++ e.name.key :: es.map fun d => d.name.key).Nodup := by
    simpa [nameKeys, he] using hr
  have hne := (List.nodup_middle.1 hnd).notMem
  have hkept : ∀ d ∈ ds ++ es, (if d.name.same e'.name then e' else d) = d := by
    intro d hd
    refine if_neg fun hs => hne ?_
    rw [← List.map_append, hn]
    exact List.mem_map.2 ⟨d, hd, Document.same_iff.1 hs⟩
  simp only [update, he, List.map_append, List.map_cons, hn, Document.same_self, if_true]
  rw [List.map_congr_left fun d hd => hkept d (List.mem_append_left _ hd),
    List.map_congr_left fun d hd => hkept d (List.mem_append_right _ hd), List.map_id',
    List.map_id']

theorem get?_update_of_ne (h : ¬ e.name.same n) : (r.update e).get? n = r.get? n := by
  have hsame : ∀ d : Entity, (if d.name.same e.name then e else d).name.same n = d.name.same n := by
    intro d
    split
    · rename_i hd
      simp only [Document.same, Document.same_iff.1 hd]
    · rfl
  simp only [get?, update, List.find?_map, Function.comp_def, hsame]
  refine (Option.map_congr fun d hd => if_neg fun hde => h ?_).trans Option.map_id'
  have hdn := List.find?_some hd
  exact Document.same_iff.2 ((Document.same_iff.1 hde).symm.trans (Document.same_iff.1 hdn))

theorem update_self (hr : r.Sound) (he : e ∈ r.entities) : r.update e = r := by
  have hkept : ∀ d ∈ r.entities, (if d.name.same e.name then e else d) = d := by
    intro d hd
    split
    · rename_i hs
      exact List.inj_on_of_nodup_map hr.names_nodup he hd (Document.same_iff.1 hs).symm
    · rfl
  rw [update, List.map_congr_left hkept, List.map_id']

theorem update_comm {d : Entity} (h : ¬ d.name.same e.name) :
    (r.update d).update e = (r.update e).update d := by
  simp only [update, List.map_map]
  congr 1
  refine List.map_congr_left fun a _ => ?_
  have h' : ¬ e.name.same d.name := by rwa [Document.same_comm]
  simp only [Function.comp]
  by_cases hd : a.name.same d.name
  · have hne : ¬ a.name.same e.name := fun he => h
      (Document.same_iff.2 ((Document.same_iff.1 hd).symm.trans (Document.same_iff.1 he)))
    simp [hd, hne, h]
  · by_cases he : a.name.same e.name
    · simp [he, hd, h']
    · simp [he, hd]

end Registry
end EntityMapping
