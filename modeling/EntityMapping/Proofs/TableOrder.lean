import EntityMapping.Convention.Basic
import EntityMapping.Proofs.Derivation.Layout
import EntityMapping.Proofs.Derivation.TwoPasses
import EntityMapping.Proofs.Relational.Typed

/-! # The order of the tables

The tables may stand in any order: a run goes through for all orders or for none, and each table
gets the same entity. Only the order of its collections, and with it their numbers, depend on the
order of the tables.
-/
namespace EntityMapping

variable {c : Convention} {s : Settings} {schema schema' : Schema}

/-- The entities are the same but for their collections, which come in any order and differ at most
in the numbers of their names. -/
structure Entity.SameUpToCollections (d e : Entity) : Prop where
  frame_eq : e = { d with properties := e.properties }
  ofKinds_eq : ∀ kinds, .collection ∉ kinds → e.ofKinds kinds = d.ofKinds kinds
  collections : ∃ ps, ps.Perm d.collections ∧
    List.Forall₂ Property.DiffersInNumber ps e.collections

theorem Schema.isPartOf_of_perm (h : schema.tables.Perm schema'.tables) :
    schema'.IsPartOf schema := by
  refine ⟨fun t ht => h.mem_iff.2 ht, fun f _ => ?_⟩
  rw [Bool.eq_iff_iff, hasTable_iff, hasTable_iff]
  simp only [h.mem_iff]

theorem ReferenceIndex.leadingTo_perm {x x' : ReferenceIndex}
    (h : schema.tables.Perm schema'.tables) (hx : ReferenceIndex.ofSchema c s schema = .ok x)
    (hx' : ReferenceIndex.ofSchema c s schema' = .ok x') (n : Name) :
    (x.leadingTo n).Perm (x'.leadingTo n) := by
  have hin : schema.hasTable = schema'.hasTable := by
    funext id
    rw [Bool.eq_iff_iff, Schema.hasTable_iff, Schema.hasTable_iff]
    simp only [h.mem_iff]
  rw [leadingTo_ofSchema hx, leadingTo_ofSchema hx', hin]
  exact ((h.flatMap_right _).filter _).filter _

namespace Entity
variable {x x' : ReferenceIndex} {q q' : Registry} {d e e' : Entity}

theorem ofKinds_extend (d : Entity) (ps : List Property) (kinds : List RoleKind) :
    (d.extend ps).ofKinds kinds = d.ofKinds kinds ++ ps.filter fun p => p.kind ∈ kinds := by
  simp [ofKinds]

theorem CollectsTo.layout (h : CollectsTo c x q d e)
    (hd : ∀ p ∈ d.properties, p.kind ≠ .collection) :
    e = { d with properties := e.properties } ∧
      (∀ kinds, .collection ∉ kinds → e.ofKinds kinds = d.ofKinds kinds) ∧
      ∃ qs, List.Forall₂ (IsSketched c q) (keysFrom c x d) qs ∧
        e.collections = Property.nameInOrder d.names qs := by
  obtain ⟨qs, hqs, rfl⟩ := h.grown
  have hkinds : ∀ p ∈ Property.nameInOrder d.names qs, p.kind = .collection := by
    intro p hp
    obtain ⟨y, hy, hnamed, _⟩ := Property.nameInOrder_isNamedFrom.exists_left hp
    obtain ⟨f, _, owner, _, hsketch⟩ := hqs.exists_left hy
    rw [hnamed]
    exact ((isCollection_of_sketch hsketch).named _).kind_eq
  refine ⟨rfl, fun kinds hno => ?_, qs, hqs, ?_⟩
  · rw [ofKinds_extend, filter_kind hkinds, if_neg hno, List.append_nil]
  · have hnone : d.ofKinds [.collection] = [] := by
      rw [ofKinds, List.filter_eq_nil_iff]
      intro p hp
      simpa using hd p hp
    rw [collections, ofKinds_extend, filter_kind hkinds, hnone]
    rfl

/-- Over keys in another order an entity gets the same collections up to order and numbers. -/
theorem CollectsTo.sameUpToCollections (h : CollectsTo c x q d e) (h' : CollectsTo c x' q' d e')
    (hd : ∀ p ∈ d.properties, p.kind ≠ .collection)
    (hkeys : (x.leadingTo d.name).Perm (x'.leadingTo d.name))
    (hsketched : ∀ f ∈ x.leadingTo d.name, ∀ p, IsSketched c q f p ↔ IsSketched c q' f p) :
    e.SameUpToCollections e' := by
  obtain ⟨hframe, hothers, qs, hqs, hcolls⟩ := h.layout hd
  obtain ⟨hframe', hothers', qs', hqs', hcolls'⟩ := h'.layout hd
  have hperm : (keysFrom c x d).Perm (keysFrom c x' d) := by
    unfold keysFrom
    split
    · exact hkeys.filter _
    · exact .refl _
  have hqs₂ : List.Forall₂ (IsSketched c q') (keysFrom c x d) qs :=
    hqs.imp_of_mem fun f hf p _ hp =>
      (hsketched f (List.mem_filter.1 (mem_keysFrom_iff.1 hf).2).1 p).1 hp
  -- The sketches of one run are those of the other in another order, before they are named.
  obtain ⟨qs₁, hqs₁, hperm₁⟩ := List.perm_comp_forall₂ hperm.symm hqs₂
  obtain rfl : qs₁ = qs' := List.right_unique_forall₂' isSketched_rightUnique hqs₁ hqs'
  have hnamed : List.Forall₂ Property.IsNamedFrom qs (Property.nameInOrder d.names qs) :=
    Property.nameInOrder_isNamedFrom
  obtain ⟨ps, hps, hperm₂⟩ := List.perm_comp_forall₂ hperm₁ hnamed
  refine ⟨?_, fun kinds hno => (hothers' kinds hno).trans (hothers kinds hno).symm, ps, ?_, ?_⟩
  · rw [hframe', hframe]
  · rwa [hcolls]
  · rw [hcolls']
    exact hps.flip.trans Property.nameInOrder_isNamedFrom fun p y p' hp hp' =>
      Property.IsNamedFrom.differsInNumber hp hp'

end Entity

namespace Registry

theorem ofSchema_isOk_of_perm (h : schema.tables.Perm schema'.tables)
    (hr : ∃ r, ofSchema c s schema = .ok r) : ∃ r, ofSchema c s schema' = .ok r := by
  obtain ⟨r, hr⟩ := hr
  exact FirstPass.ofSchema_isOk_of_isPartOf (Schema.isPartOf_of_perm h) hr

/-- The order of the tables decides neither over the success of a run nor over what the entities
are, up to the order and the numbers of their collections. -/
theorem ofSchema_perm (h : schema.tables.Perm schema'.tables) :
    ((∃ r, ofSchema c s schema = .ok r) ↔ ∃ r, ofSchema c s schema' = .ok r) ∧
    ∀ r r', ofSchema c s schema = .ok r → ofSchema c s schema' = .ok r' →
      ∀ t ∈ schema.tables, ∃ e e', r.ofTable? t.id = some e ∧ r'.ofTable? t.id = some e' ∧
        e.table = t ∧ e.SameUpToCollections e' := by
  refine ⟨⟨ofSchema_isOk_of_perm h, ofSchema_isOk_of_perm h.symm⟩, ?_⟩
  intro r r' hr hr' t ht
  obtain ⟨x, ds, q, hfirst, hagree, hes⟩ := FirstPass.of_ofSchema hr
  obtain ⟨x', ds', q', hfirst', hagree', hes'⟩ := FirstPass.of_ofSchema hr'
  have hpart := Schema.isPartOf_of_perm h.symm
  have hsub := hfirst'.mem_of_isPartOf hpart hfirst.made
  obtain ⟨d, hd, hmade⟩ := hfirst.made.exists_right ht
  have hcompleted := Entity.isCompleted_of_ofTable hmade
  obtain ⟨e, he, hcollects⟩ := hes.exists_right hd
  obtain ⟨e', he', hcollects'⟩ := hes'.exists_right (hsub d hd)
  have htable : e.table = t := hcollects.agreesAsOwner.table_eq.symm.trans hcompleted.table_eq
  have htable' : e'.table = t := hcollects'.agreesAsOwner.table_eq.symm.trans hcompleted.table_eq
  refine ⟨e, e', (hagree.sound hfirst.sound).ofTable?_eq he (by rw [htable]),
    (hagree'.sound hfirst'.sound).ofTable?_eq he' (by rw [htable']), htable,
    hcollects.sameUpToCollections hcollects' hcompleted.kind_ne_collection
      (ReferenceIndex.leadingTo_perm h hfirst.indexed hfirst'.indexed _) fun f hf p => ?_⟩
  exact hfirst'.isSketched_iff hfirst hsub (mem_foreignKeys_of_leadingTo hfirst.indexed hf)

end Registry

def Table.formerOrders : Table :=
  { Table.orders with
    id := { name := "Orders" }
    foreignKeys := [{ ForeignKey.ofOrder with table := { name := "Orders" } }]
    foreign_owner := by decide
    foreign_columns := by decide }

def Schema.twofoldShop : Schema where
  tables := [.customers, .orders, .formerOrders]
  ids_plain := by decide
  ids_nodup := by decide
  targets_plain := by decide
  targets_known := by decide

def Schema.twofoldShopReversed : Schema where
  tables := [.formerOrders, .orders, .customers]
  ids_plain := by decide
  ids_nodup := by decide
  targets_plain := by decide
  targets_known := by decide

/-- The collections of the customers have the same two names in both orders, but not for the same
keys. -/
theorem Registry.ofSchema_perm_twofoldShop :
    ∃ r r', ofSchema .plain {} .twofoldShop = .ok r ∧
      ofSchema .plain {} .twofoldShopReversed = .ok r' ∧
      (r.ofTable? Table.customers.id).map Entity.collections ≠
        (r'.ofTable? Table.customers.id).map Entity.collections ∧
      ∀ t ∈ Schema.twofoldShop.tables, ∃ e e', r.ofTable? t.id = some e ∧
        r'.ofTable? t.id = some e' ∧ e.table = t ∧ e.SameUpToCollections e' := by
  have hrun : (ofSchema .plain {} .twofoldShop).toOption.any fun r =>
      (ofSchema .plain {} .twofoldShopReversed).toOption.any fun r' =>
        (r.ofTable? Table.customers.id).map Entity.collections ≠
          (r'.ofTable? Table.customers.id).map Entity.collections := by decide +kernel
  obtain ⟨r, hr, hrun⟩ := exists_ok_of_toOption_any hrun
  obtain ⟨r', hr', hne⟩ := exists_ok_of_toOption_any hrun
  have hperm : Schema.twofoldShop.tables.Perm Schema.twofoldShopReversed.tables :=
    (List.reverse_perm _).symm
  exact ⟨r, r', hr, hr', of_decide_eq_true hne, (ofSchema_perm hperm).2 r r' hr hr'⟩

end EntityMapping
