import EntityMapping.Proofs.EntityGraph
import EntityMapping.Proofs.Derivation.Growth

/-! # Collections are exact

The collections of an entity are found through an index that knows entities only by their names.
In a typed schema the names lead back to the tables, so that an entity with a primary key has one
collection for each key that refers to its table, in the order of the schema, and the others have
none. No collection is left out because the owner of its key is missing.
-/
namespace EntityMapping

variable {c : Convention} {s : Settings} {schema : Schema}

/-- The keys of a schema that refer to a table and are wanted as collections. -/
def Schema.keysInto (schema : Schema) (c : Convention) (id : TableId) : List ForeignKey :=
  schema.foreignKeys.filter fun f => f.target = id ∧ c.skipsCollection f = .ok false

/-- The property is the collection along a key: over its columns, from the entity that is bound for
its table, and with the first reference of that entity along the key as its other side. -/
structure Registry.Collects (r : Registry) (f : ForeignKey) (p : Property) : Prop where
  foreignKey?_eq : p.foreignKey? = some f
  columns_eq : p.columns = f.columns
  leads_back : ∃ owner, r.ofTable? f.table = some owner ∧ p.target? = some owner.name ∧
    p.otherName =
      ((owner.references.find? fun q => q.foreignKey? = some f).map Property.name).getD .null

/-- An entity has an identifier if and only if its table has a primary key. -/
theorem Derives.hasIdentifier_iff {r : Registry} {t : Table} {v : Option Property}
    {ks : List (ForeignKey × Bool)} {refs scs colls : List Property} {e : Entity}
    (h : Derives c s schema r t v ks refs scs colls e) :
    e.hasIdentifier ↔ e.table.primaryKey ≠ none := by
  have htable := h.table_eq
  obtain ⟨d, hd, he⟩ := h.completed
  have hkind : e.identifier.kind = .none ↔ t.primaryKey = none := by
    rw [he]
    exact hd.kind_iff
  rw [htable, ne_eq, ← hkind]
  simp [Entity.hasIdentifier]

namespace Registry
variable {r : Registry} {e : Entity} {f : ForeignKey}

/-- A key leads to the name of an entity within the schema if and only if it refers to the table of
that entity. -/
theorem leadsTo_iff_target_eq (h : ofSchema c s schema = .ok r) (hs : schema.IsTyped)
    (he : e ∈ r.entities) :
    (schema.hasTable f.target ∧ leadsTo c s e.name f) ↔ f.target = e.table.id := by
  obtain ⟨hsound, hall⟩ := ofSchema_eq_ok h
  constructor
  · rintro ⟨hin, hlead⟩
    obtain ⟨t, _, ht, target, htarget, hd, hname⟩ := hs.exists_target hall hin
    rw [leadsTo_of_entityName hname] at hlead
    obtain rfl : target = e := List.inj_on_of_nodup_map hsound.names_nodup htarget he
      (Document.same_iff.1 hlead)
    rw [hd.table_eq, ht]
  · intro htarget
    obtain ⟨t, ht, hd⟩ := hall.exists_left he
    rw [hd.table_eq] at htarget
    have hname : entityName c s f.target = .ok e.name := htarget ▸ hd.name_eq
    refine ⟨Schema.hasTable_iff.2 ⟨t, ht, by rw [htarget]⟩, ?_⟩
    rw [leadsTo_of_entityName hname]
    exact Document.same_self _

theorem incomingKeys_eq_keysInto (h : ofSchema c s schema = .ok r) (hs : schema.IsTyped)
    (he : e ∈ r.entities) (hid : e.hasIdentifier) :
    e.incomingKeys c s schema = schema.keysInto c e.table.id := by
  rw [Entity.incomingKeys, if_pos hid, Entity.wanted, List.filter_filter, List.filter_filter,
    Schema.keysInto]
  refine List.filter_congr fun f _ => ?_
  rw [Bool.eq_iff_iff]
  have hlead := leadsTo_iff_target_eq (f := f) h hs he
  simp only [Bool.and_eq_true, decide_eq_true_eq]
  tauto

theorem referenceFor?_eq_find? (h : ofSchema c s schema = .ok r) (hs : schema.IsTyped)
    {owner : Entity} (howner : owner ∈ r.entities) (hf : f ∈ schema.foreignKeys) :
    owner.referenceFor? f = owner.references.find? fun q => q.foreignKey? = some f := by
  obtain ⟨_, hall⟩ := ofSchema_eq_ok h
  obtain ⟨t, ht, _, ks, refs, _, _, hd⟩ := hall.exists_left howner
  obtain ⟨d, hcomplete, _⟩ := hd.completed
  refine List.find?_congr fun p hp => ?_
  rw [hd.references_eq] at hp
  obtain ⟨k, hk, hr⟩ := hcomplete.referenced.exists_left hp
  have hkt := (treated_of_mem_boundKeys hcomplete.planned hk).1
  have hkey : k.1 ∈ schema.foreignKeys := Schema.mem_foreignKeys_iff.2 ⟨t, ht, hkt⟩
  rw [hr.foreignKey?_eq, Option.any_some, Bool.eq_iff_iff, decide_eq_true_eq, Option.some_inj]
  constructor
  · exact fun hsame => ((hs.foreignKey hf).eq_of_same (hs.foreignKey hkey) hsame).symm
  · intro heq
    rw [heq]
    exact f.same_self

theorem collects_of_isCollection (h : ofSchema c s schema = .ok r) (hs : schema.IsTyped)
    {owner : Entity} (hf : f ∈ schema.foreignKeys) (howner : r.ofTable? f.table = some owner)
    {p : Property} (hp : p.IsCollection c owner f) : r.Collects f p := by
  refine ⟨hp.foreignKey?_eq, hp.columns_eq, owner, howner, hp.target?_eq, ?_⟩
  rw [hp.otherName_eq, referenceFor?_eq_find? h hs (mem_of_ofTable?_eq_some howner) hf]

theorem collections_eq_nil (h : ofSchema c s schema = .ok r) (he : e ∈ r.entities)
    (hnone : e.table.primaryKey = none) : e.collections = [] := by
  obtain ⟨_, hall⟩ := ofSchema_eq_ok h
  obtain ⟨_, _, _, _, _, _, _, hd⟩ := hall.exists_left he
  have hid : ¬ e.hasIdentifier := mt hd.hasIdentifier_iff.1 (not_not.2 hnone)
  have hcollected := hd.collected
  rw [Entity.incomingKeys, if_neg hid, ← hd.collections_eq] at hcollected
  exact List.forall₂_nil_left_iff.1 hcollected

theorem forall₂_collects (h : ofSchema c s schema = .ok r) (hs : schema.IsTyped)
    (he : e ∈ r.entities) (hsome : e.table.primaryKey ≠ none) :
    List.Forall₂ r.Collects (schema.keysInto c e.table.id) e.collections := by
  obtain ⟨_, hall⟩ := ofSchema_eq_ok h
  obtain ⟨_, _, _, _, _, _, _, hd⟩ := hall.exists_left he
  have hcollected := hd.collected
  rw [← hd.collections_eq,
    incomingKeys_eq_keysInto h hs he (hd.hasIdentifier_iff.2 hsome)] at hcollected
  refine hcollected.imp_of_mem fun f hf p _ hp => ?_
  obtain ⟨owner, howner, hp⟩ := hp
  exact collects_of_isCollection h hs (List.mem_filter.1 hf).1 howner hp

/-- Entities without a primary key have no collections, those with one have exactly the collections
of the keys that refer to their tables, and no run fails to find the owner of a key. -/
theorem collections_exact (c : Convention) (s : Settings) (schema : Schema) :
    (∀ r, ofSchema c s schema = .ok r → ∀ e ∈ r.entities,
      (e.table.primaryKey = none → e.collections = []) ∧
        (e.table.primaryKey ≠ none → schema.IsTyped →
          List.Forall₂ r.Collects (schema.keysInto c e.table.id) e.collections)) ∧
    ∀ f, .ownerUnbound f ∉ (derive c s schema).warnings := by
  refine ⟨fun r h e he => ⟨collections_eq_nil h he, fun hsome hs =>
    forall₂_collects h hs he hsome⟩, fun f hf => ?_⟩
  rcases warnings_derive _ hf with hbinding | hcollecting
  · exact hbinding
  · exact hcollecting

/-- In the example one entity has a collection, and all tables have primary keys. -/
theorem collections_exact_shop : ∃ r, ofSchema .plain {} .shop = .ok r ∧
    (∃ e ∈ r.entities, e.table.primaryKey ≠ none ∧
      Schema.shop.keysInto .plain e.table.id = [.ofOrder] ∧
      List.Forall₂ r.Collects (Schema.shop.keysInto .plain e.table.id) e.collections) ∧
    ∀ f, .ownerUnbound f ∉ (derive .plain {} .shop).warnings := by
  have hrun : (ofSchema .plain {} .shop).toOption.any fun r =>
      ∃ e ∈ r.entities, e.table.primaryKey ≠ none ∧
        Schema.shop.keysInto .plain e.table.id = [.ofOrder] := by decide
  obtain ⟨r, h, hfound⟩ := exists_ok_of_toOption_any hrun
  obtain ⟨e, he, hkey, hinto⟩ := of_decide_eq_true hfound
  obtain ⟨hexact, howned⟩ := collections_exact .plain {} .shop
  exact ⟨r, h, ⟨e, he, hkey, hinto, (hexact r h e he).2 hkey (by decide)⟩, howned⟩

end Registry
end EntityMapping
