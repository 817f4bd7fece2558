import EntityMapping.Convention.Basic
import EntityMapping.Proofs.Derivation.Layout
import EntityMapping.Proofs.Relational.Typed

/-! # Every column has its place

On a derived entity the identifier, the version and the scalars share the columns out among them,
and what they leave over is held by references. No column is lost, and only a column that nothing
else holds is a scalar.
-/
namespace EntityMapping
open Column

variable {c : Convention} {s : Settings} {schema : Schema}

namespace Entity

def holders (e : Entity) : List Property :=
  e.identifier.properties ++ e.ofKinds [.version, .scalar]

/-- How the properties of an entity share the columns of its table. -/
structure OwnsColumns (e : Entity) : Prop where
  single : ∀ p ∈ e.holders, ∃ col, p.columns = [col]
  disjoint : (nameKeys (e.holders.flatMap Property.columns)).Nodup
  covered : ∀ col ∈ e.table.columns,
    ∃ p ∈ e.identifier.properties ++ e.ofKinds [.version, .scalar, .reference],
      col.isAmong p.columns
  own : ∀ p ∈ e.identifier.properties ++ e.properties, p.kind ≠ .collection →
    ∀ col ∈ p.columns, col.isAmong e.table.columns
  scalar_iff : ∀ col ∈ e.table.columns, (∃ p ∈ e.scalars, col.isAmong p.columns) ↔
    ¬ col.isAmong e.table.keyColumns ∧ (∀ p ∈ e.version, ¬ col.isAmong p.columns) ∧
      ∀ p ∈ e.references, ¬ col.isAmong p.columns
  layout : e.properties = e.version.toList ++ e.references ++ e.scalars ++ e.collections
  version_kind : ∀ p ∈ e.version, p.kind = .version
  references_order : ∃ fs : List ForeignKey, fs.Sublist e.table.foreignKeys ∧
    e.references.map Property.foreignKey? = fs.map some
  scalars_order : (e.scalars.flatMap Property.columns).Sublist e.table.columns

end Entity

namespace Derives
variable {r : Registry} {t : Table} {v : Option Property} {ks : List (ForeignKey × Bool)}
  {refs scs colls : List Property} {e : Entity}

theorem identifier_columns (h : Derives c s schema r t v ks refs scs colls e) :
    e.identifier.properties.flatMap Property.columns = t.keyColumns :=
  h.identified.flatMap_eq fun _ _ hm => hm.columns_eq

theorem reference_columns (h : Derives c s schema r t v ks refs scs colls e) :
    refs.flatMap Property.columns = keyedColumns ks := by
  obtain ⟨d, hd, _⟩ := h.completed
  have hmap : ks.map (fun k => k.1.columns) = refs.map Property.columns :=
    hd.referenced.map_eq_map fun _ _ hr => hr.columns_eq.symm
  rw [keyedColumns, List.flatMap_def, List.flatMap_def, hmap]

theorem scalar_columns (h : Derives c s schema r t v ks refs scs colls e) :
    scs.flatMap Property.columns =
      Draft.freeColumns ((startingClaims t v).insertAll (keyedColumns ks)) t.columns := by
  obtain ⟨d, hd, _⟩ := h.completed
  exact hd.scaled.flatMap_eq fun _ _ hm => hm.columns_eq

theorem version_columns (h : Derives c s schema r t v ks refs scs colls e) :
    ∀ p ∈ v, ∃ col ∈ t.columns, p.columns = [col] := by
  obtain ⟨d, hd, _⟩ := h.completed
  intro p hp
  obtain ⟨col, hcol, hm⟩ := hd.versioned p hp
  exact ⟨col, hcol, hm.columns_eq⟩

/-- The columns that the steps before the scalars claim are columns of the table. -/
theorem claimed_own (h : Derives c s schema r t v ks refs scs colls e) :
    ∀ col ∈ t.keyColumns ++ v.toList.flatMap Property.columns ++ refs.flatMap Property.columns,
      col.isAmong t.columns := by
  obtain ⟨d, hd, _⟩ := h.completed
  intro col hcol
  rcases List.mem_append.1 hcol with hcol | hcol
  · rcases List.mem_append.1 hcol with hcol | hcol
    · exact Table.isAmong_of_mem_keyColumns hcol
    · obtain ⟨p, hp, hcol⟩ := List.mem_flatMap.1 hcol
      obtain ⟨col', hcol', hp⟩ := h.version_columns p (Option.mem_toList.1 hp)
      obtain rfl : col = col' := by simpa [hp] using hcol
      exact isAmong_of_mem hcol'
  · rw [h.reference_columns] at hcol
    obtain ⟨k, hk, hcol⟩ := List.mem_flatMap.1 hcol
    have hsub := (boundKeys_sublist hd.planned).subset (List.mem_map_of_mem hk)
    exact Table.isAmong_of_mem_foreignKey hsub hcol

/-- A column is a scalar's when neither the key nor the version nor a reference holds it. -/
theorem mem_scalar_columns_iff (h : Derives c s schema r t v ks refs scs colls e) {col : Column}
    (hcol : col ∈ t.columns) : col ∈ scs.flatMap Property.columns ↔
      ¬ col.isAmong (t.keyColumns ++ v.toList.flatMap Property.columns ++
        refs.flatMap Property.columns) := by
  rw [h.scalar_columns, Table.isAmong_iff_name h.claimed_own (isAmong_of_mem hcol),
    Draft.freeColumns, List.mem_filter, Bool.not_eq_true', Claims.has_eq_false_iff,
    Claims.mem_nameKeys_insertAll, h.reference_columns, nameKeys_append (t.keyColumns ++ _),
    List.mem_append, startingClaims, or_comm]
  exact and_iff_right hcol

theorem mem_of_isAmong_scalars (h : Derives c s schema r t v ks refs scs colls e) {col : Column}
    (hcol : col ∈ t.columns) (hs : col.isAmong (scs.flatMap Property.columns)) :
    col ∈ scs.flatMap Property.columns := by
  obtain ⟨d, hd, hk⟩ := isAmong_iff.1 hs
  have hdt : d ∈ t.columns := by
    rw [h.scalar_columns] at hd
    exact (List.mem_filter.1 hd).1
  rwa [Table.column_ext hcol hdt (congrArg Column.name hk)]

theorem holders_columns (h : Derives c s schema r t v ks refs scs colls e) :
    e.holders.flatMap Property.columns =
      (startingClaims t v).columns ++ scs.flatMap Property.columns := by
  have hkinds : e.ofKinds [.version, .scalar] = v.toList ++ scs := by
    simpa using h.ofKinds_eq [.version, .scalar]
  rw [Entity.holders, hkinds, List.flatMap_append, List.flatMap_append, h.identifier_columns,
    startingClaims, List.append_assoc]

theorem disjoint (h : Derives c s schema r t v ks refs scs colls e) :
    (nameKeys (e.holders.flatMap Property.columns)).Nodup := by
  obtain ⟨d, hd, _⟩ := h.completed
  rw [h.holders_columns, nameKeys_append]
  have hsub : (scs.flatMap Property.columns).Sublist t.columns := by
    rw [h.scalar_columns]
    exact List.filter_sublist
  refine hd.claims_nodup.append (t.nameKeys_nodup.sublist (hsub.map _)) ?_
  intro n hstart hscs
  obtain ⟨col, hcol, rfl⟩ := List.mem_map.1 hscs
  rw [h.scalar_columns, Draft.freeColumns, List.mem_filter, Bool.not_eq_true',
    Claims.has_eq_false_iff, Claims.mem_nameKeys_insertAll] at hcol
  exact hcol.2 (.inr hstart)

theorem scalar_iff (h : Derives c s schema r t v ks refs scs colls e) {col : Column}
    (hcol : col ∈ t.columns) : (∃ p ∈ scs, col.isAmong p.columns) ↔
      ¬ col.isAmong t.keyColumns ∧ (∀ p ∈ v, ¬ col.isAmong p.columns) ∧
        ∀ p ∈ refs, ¬ col.isAmong p.columns := by
  have hmem : col.isAmong (scs.flatMap Property.columns) ↔ col ∈ scs.flatMap Property.columns :=
    ⟨h.mem_of_isAmong_scalars hcol, isAmong_of_mem⟩
  rw [← isAmong_flatMap, hmem, h.mem_scalar_columns_iff hcol, isAmong_append, isAmong_append,
    isAmong_flatMap, isAmong_flatMap]
  simp only [not_or, not_exists, not_and, Option.mem_toList, Option.mem_def, and_assoc]

theorem holders_single (h : Derives c s schema r t v ks refs scs colls e) :
    ∀ p ∈ e.holders, ∃ col, p.columns = [col] := by
  obtain ⟨d, hd, _⟩ := h.completed
  have hkinds : e.ofKinds [.version, .scalar] = v.toList ++ scs := by
    simpa using h.ofKinds_eq [.version, .scalar]
  intro p hp
  rw [Entity.holders, hkinds, List.mem_append, List.mem_append] at hp
  rcases hp with hp | hp | hp
  · obtain ⟨col, _, hm⟩ := h.identified.exists_left hp
    exact ⟨col, hm.columns_eq⟩
  · obtain ⟨col, _, hcol⟩ := h.version_columns p (Option.mem_toList.1 hp)
    exact ⟨col, hcol⟩
  · obtain ⟨col, _, hm⟩ := hd.scaled.exists_left hp
    exact ⟨col, hm.columns_eq⟩

theorem covered (h : Derives c s schema r t v ks refs scs colls e) {col : Column}
    (hcol : col ∈ t.columns) :
    ∃ p ∈ e.identifier.properties ++ e.ofKinds [.version, .scalar, .reference],
      col.isAmong p.columns := by
  have hkinds : e.ofKinds [.version, .scalar, .reference] = v.toList ++ refs ++ scs := by
    simpa using h.ofKinds_eq [.version, .scalar, .reference]
  rw [hkinds, ← isAmong_flatMap]
  simp only [List.flatMap_append, isAmong_append, h.identifier_columns]
  by_cases hs : col.isAmong (scs.flatMap Property.columns)
  · exact .inr (.inr hs)
  · have hclaimed := mt (h.mem_scalar_columns_iff hcol).2 fun hm => hs (isAmong_of_mem hm)
    rw [not_not, isAmong_append, isAmong_append] at hclaimed
    tauto

theorem own (h : Derives c s schema r t v ks refs scs colls e) :
    ∀ p ∈ e.identifier.properties ++ e.properties, p.kind ≠ .collection →
      ∀ col ∈ p.columns, col.isAmong t.columns := by
  intro p hp hk col hcol
  simp only [h.properties_eq, List.mem_append] at hp
  rcases hp with hp | ((hp | hp) | hp) | hp
  · have hkey : col ∈ t.keyColumns := by
      rw [← h.identifier_columns]
      exact List.mem_flatMap.2 ⟨p, hp, hcol⟩
    exact Table.isAmong_of_mem_keyColumns hkey
  · have hv : col ∈ v.toList.flatMap Property.columns := List.mem_flatMap.2 ⟨p, hp, hcol⟩
    exact h.claimed_own col (List.mem_append_left _ (List.mem_append_right _ hv))
  · have hr : col ∈ refs.flatMap Property.columns := List.mem_flatMap.2 ⟨p, hp, hcol⟩
    exact h.claimed_own col (List.mem_append_right _ hr)
  · have hs : col ∈ scs.flatMap Property.columns := List.mem_flatMap.2 ⟨p, hp, hcol⟩
    rw [h.scalar_columns] at hs
    exact isAmong_of_mem (List.mem_filter.1 hs).1
  · exact absurd (h.kind_collections p hp) hk

theorem references_order (h : Derives c s schema r t v ks refs scs colls e) :
    ∃ fs : List ForeignKey, fs.Sublist t.foreignKeys ∧
      refs.map Property.foreignKey? = fs.map some := by
  obtain ⟨d, hd, _⟩ := h.completed
  refine ⟨ks.map Prod.fst, boundKeys_sublist hd.planned, ?_⟩
  rw [List.map_map]
  exact (hd.referenced.map_eq_map fun _ _ hr => hr.foreignKey?_eq.symm).symm

theorem ownsColumns (h : Derives c s schema r t v ks refs scs colls e) : e.OwnsColumns where
  single := h.holders_single
  disjoint := h.disjoint
  covered col hcol := h.covered (h.table_eq ▸ hcol)
  own := by
    rw [h.table_eq]
    exact h.own
  scalar_iff col hcol := by
    rw [h.scalars_eq, h.version_eq, h.references_eq, h.table_eq]
    exact h.scalar_iff (h.table_eq ▸ hcol)
  layout := by
    rw [h.properties_eq, h.version_eq, h.references_eq, h.scalars_eq, h.collections_eq]
  version_kind p hp := by
    obtain ⟨_, hd, _⟩ := h.completed
    rw [h.version_eq] at hp
    exact hd.kind_version p (Option.mem_toList.2 hp)
  references_order := by
    rw [h.table_eq, h.references_eq]
    exact h.references_order
  scalars_order := by
    rw [h.table_eq, h.scalars_eq, h.scalar_columns]
    exact List.filter_sublist

end Derives

namespace Registry

/-- After a successful run every entity owns the columns of a table of the schema. -/
theorem ownsColumns_of_mem {r : Registry} (h : ofSchema c s schema = .ok r) {e : Entity}
    (he : e ∈ r.entities) : e.table ∈ schema.tables ∧ e.OwnsColumns := by
  obtain ⟨_, hall⟩ := ofSchema_eq_ok h
  obtain ⟨t, ht, _, _, _, _, _, hd⟩ := hall.exists_left he
  exact ⟨hd.table_eq ▸ ht, hd.ownsColumns⟩

theorem ownsColumns_shop : ∃ r, ofSchema .plain {} .shop = .ok r ∧ r.entities.length = 2 ∧
    ∀ e ∈ r.entities, e.table ∈ Schema.shop.tables ∧ e.OwnsColumns := by
  have hrun : (ofSchema .plain {} .shop).toOption.any fun r => r.entities.length = 2 := by decide
  obtain ⟨r, h, hlength⟩ := exists_ok_of_toOption_any hrun
  exact ⟨r, h, of_decide_eq_true hlength, fun e he => ownsColumns_of_mem h he⟩

end Registry
end EntityMapping
