import EntityMapping.Proofs.Bidirectional

/-! # The graph of the entities

The entities of a successful run mirror the tables of the schema. In a typed schema no association
leads out of the registry: a reference leads to the entity of the table that its key refers to, and
a collection to the entity of the table that owns the key.
-/
namespace EntityMapping

variable {c : Convention} {s : Settings} {schema : Schema} {r : Registry}

namespace Registry

/-- The association leads to the entity of a table, found under the name that it gives. -/
def LeadsTo (r : Registry) (p : Property) (id : TableId) : Prop :=
  ∃ n e, p.target? = some n ∧ r.get? n = some e ∧ e.table.id = id

/-- The entities are those of the tables, one each and in their order, under different names by
which they are imported. They are found by their tables. -/
structure Mirrors (r : Registry) (schema : Schema) : Prop where
  tables_eq : r.entities.map Entity.table = schema.tables
  names_nodup : r.nameKeys.Nodup
  imports_eq : r.imports = r.names.map fun n => (n, n)
  located : ∀ t ∈ schema.tables, ∃ e ∈ r.entities, e.table = t ∧ r.ofTable? t.id = some e

/-- The associations lead from one entity to another, along their keys or back. -/
structure IsClosed (r : Registry) : Prop where
  references_lead : ∀ e ∈ r.entities, ∀ p ∈ e.references,
    ∃ f, p.foreignKey? = some f ∧ r.LeadsTo p f.target
  collections_lead : ∀ e ∈ r.entities, ∀ p ∈ e.collections,
    ∃ f, p.foreignKey? = some f ∧ r.LeadsTo p f.table

theorem ofTable?_of_mem (hr : r.Sound) (hs : schema.IsTyped)
    (htables : r.entities.map Entity.table = schema.tables) {f : ForeignKey}
    (hf : f ∈ schema.foreignKeys) :
    ∃ owner ∈ r.entities, r.ofTable? f.table = some owner ∧ owner.table.id = f.table := by
  obtain ⟨t, ht, hft⟩ := Schema.mem_foreignKeys_iff.1 hf
  obtain ⟨owner, howner, rfl, hfound⟩ := ofTable?_owner hr htables.symm ht hft
  have hid : f.table.key = owner.table.id.key :=
    TableId.same_iff.1 (owner.table.foreign_owner f hft)
  exact ⟨owner, howner, hfound, ((hs.foreignKey hf).1.eq_of_key hid).symm⟩

theorem leadsTo_of_mem_references (h : ofSchema c s schema = .ok r) (hs : schema.IsTyped)
    {e : Entity} (he : e ∈ r.entities) {p : Property} (hp : p ∈ e.references) :
    ∃ f, p.foreignKey? = some f ∧ r.LeadsTo p f.target := by
  obtain ⟨hsound, hall⟩ := ofSchema_eq_ok h
  obtain ⟨t, _, v, ks, refs, scs, colls, hd⟩ := hall.exists_left he
  obtain ⟨d, hcomplete, _⟩ := hd.completed
  rw [hd.references_eq] at hp
  obtain ⟨k, hk, hreference⟩ := hcomplete.referenced.exists_left hp
  obtain ⟨_, hin, _⟩ := treated_of_mem_boundKeys hcomplete.planned hk
  obtain ⟨u, _, hu, target, htarget, hderived, hname⟩ := hs.exists_target hall hin
  obtain ⟨n, hn, hrole, _⟩ := hreference.leads
  refine ⟨k.1, hreference.foreignKey?_eq, target.name, target, ?_, hsound.get?_name htarget, ?_⟩
  · rw [Property.target?, hrole, Except.ok.inj (hname.symm.trans hn)]
    rfl
  · rw [hderived.table_eq, hu]

theorem leadsTo_of_mem_collections (h : ofSchema c s schema = .ok r) (hs : schema.IsTyped)
    (htables : r.entities.map Entity.table = schema.tables) {e : Entity} (he : e ∈ r.entities)
    {p : Property} (hp : p ∈ e.collections) :
    ∃ f, p.foreignKey? = some f ∧ r.LeadsTo p f.table := by
  obtain ⟨hsound, hall⟩ := ofSchema_eq_ok h
  obtain ⟨t, _, v, ks, refs, scs, colls, hd⟩ := hall.exists_left he
  rw [hd.collections_eq] at hp
  obtain ⟨f, hf, owner, howner, hcollection⟩ := hd.collected.exists_left hp
  obtain ⟨owner', hmem, hfound, hid⟩ :=
    ofTable?_of_mem hsound hs htables (Entity.mem_foreignKeys_of_incoming hf)
  obtain rfl : owner = owner' := Option.some.inj (howner.symm.trans hfound)
  exact ⟨f, hcollection.foreignKey?_eq, owner.name, owner, hcollection.target?_eq,
    hsound.get?_name hmem, hid⟩

/-- The registry of a successful run mirrors the schema, and if that is typed, all associations stay
within the registry. -/
theorem mirrors_schema (h : ofSchema c s schema = .ok r) :
    r.Mirrors schema ∧ (schema.IsTyped → r.IsClosed) := by
  obtain ⟨hsound, hall⟩ := ofSchema_eq_ok h
  have htables : r.entities.map Entity.table = schema.tables :=
    (hall.eq_map fun _ _ hd => hd.table_eq.symm).symm
  have hlocated : ∀ t ∈ schema.tables, ∃ e ∈ r.entities, e.table = t ∧
      r.ofTable? t.id = some e := by
    intro t ht
    obtain ⟨e, he, hd⟩ := hall.exists_right ht
    have hid : e.table.id.key = t.id.key := by rw [hd.table_eq]
    exact ⟨e, he, hd.table_eq, hsound.ofTable?_eq he hid⟩
  refine ⟨⟨htables, hsound.names_nodup, hsound.imports_eq, hlocated⟩, fun hs => ⟨?_, ?_⟩⟩
  · exact fun e he p hp => leadsTo_of_mem_references h hs he hp
  · exact fun e he p hp => leadsTo_of_mem_collections h hs htables he hp

/-- The example has associations of both kinds. -/
theorem mirrors_schema_shop : ∃ r, ofSchema .plain {} .shop = .ok r ∧
    (∃ e ∈ r.entities, e.references ≠ []) ∧ (∃ e ∈ r.entities, e.collections ≠ []) ∧
    r.Mirrors .shop ∧ r.IsClosed := by
  have hrun : (ofSchema .plain {} .shop).toOption.any fun r =>
      (∃ e ∈ r.entities, e.references ≠ []) ∧ ∃ e ∈ r.entities, e.collections ≠ [] := by decide
  obtain ⟨r, h, hfound⟩ := exists_ok_of_toOption_any hrun
  obtain ⟨hreferences, hcollections⟩ := of_decide_eq_true hfound
  obtain ⟨hmirrors, hclosed⟩ := mirrors_schema h
  exact ⟨r, h, hreferences, hcollections, hmirrors, hclosed (by decide)⟩

end Registry
end EntityMapping
