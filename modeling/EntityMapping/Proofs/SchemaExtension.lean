import EntityMapping.Proofs.CollectionExactness
import EntityMapping.Proofs.Derivation.TwoPasses

/-! # One table more

A table behind the others that none of their keys refers to changes nothing for them but the keys
that lead to them. The entities of the other tables keep their places and all that they have, and
get their further collections behind it.
-/
namespace EntityMapping

variable {c : Convention} {s : Settings} {schema schema' : Schema} {t : Table}

/-- The other schema has one table more, and no key of the schema refers to it. -/
structure Schema.IsExtendedBy (schema : Schema) (t : Table) (schema' : Schema) : Prop where
  tables_eq : schema'.tables = schema.tables ++ [t]
  unknown : ∀ f ∈ schema.foreignKeys, f.target.same t.id = false

def Table.keysInto (t : Table) (c : Convention) (id : TableId) : List ForeignKey :=
  t.foreignKeys.filter fun f => f.target = id ∧ c.skipsCollection f = .ok false

namespace Schema.IsExtendedBy

theorem foreignKeys_eq (h : schema.IsExtendedBy t schema') :
    schema'.foreignKeys = schema.foreignKeys ++ t.foreignKeys := by
  simp [foreignKeys, h.tables_eq]

theorem hasTable_eq (h : schema.IsExtendedBy t schema') {f : ForeignKey}
    (hf : f ∈ schema.foreignKeys) : schema.hasTable f.target = schema'.hasTable f.target := by
  have hne : t.id.same f.target = false := by
    have hno := h.unknown f hf
    simp only [TableId.same, decide_eq_false_iff_not] at hno ⊢
    exact fun he => hno he.symm
  simp [hasTable, h.tables_eq, hne]

theorem isPartOf (h : schema.IsExtendedBy t schema') : schema.IsPartOf schema' :=
  ⟨fun _ hu => h.tables_eq ▸ List.mem_append_left _ hu, fun _ hf => h.hasTable_eq hf⟩

theorem leadingTo_eq (h : schema.IsExtendedBy t schema') {x x' : ReferenceIndex}
    (hx : ReferenceIndex.ofSchema c s schema = .ok x)
    (hx' : ReferenceIndex.ofSchema c s schema' = .ok x') (n : Name) :
    x'.leadingTo n = x.leadingTo n ++
      (t.foreignKeys.filter fun f => schema'.hasTable f.target).filter (leadsTo c s n) := by
  rw [leadingTo_ofSchema hx, leadingTo_ofSchema hx', h.foreignKeys_eq, List.filter_append,
    List.filter_append, List.filter_congr fun f hf => (h.hasTable_eq hf).symm]

end Schema.IsExtendedBy

namespace Entity
variable {x x' : ReferenceIndex} {q q' : Registry} {d e e' : Entity} {fs : List ForeignKey}

theorem keysFrom_append (h : x'.leadingTo d.name = x.leadingTo d.name ++ fs) :
    keysFrom c x' d = keysFrom c x d ++ if d.hasIdentifier then wanted c fs else [] := by
  unfold keysFrom
  split
  · rw [h, wanted, List.filter_append]
    rfl
  · rfl

theorem CollectsTo.extend (h : CollectsTo c x q d e) (h' : CollectsTo c x' q' d e')
    (hkeys : x'.leadingTo d.name = x.leadingTo d.name ++ fs)
    (hsketched : ∀ f ∈ x.leadingTo d.name, ∀ p, IsSketched c q f p ↔ IsSketched c q' f p) :
    ∃ qs, List.Forall₂ (IsSketched c q') (if e.hasIdentifier then wanted c fs else []) qs ∧
      e' = e.extend (Property.nameInOrder e.names qs) := by
  obtain ⟨qs, hqs, rfl⟩ := h.grown
  obtain ⟨qs', hqs', rfl⟩ := h'.grown
  rw [keysFrom_append hkeys] at hqs'
  obtain ⟨qs₁, qs₂, rfl, hqs₁, hqs₂⟩ := hqs'.of_append
  have hqs₀ : List.Forall₂ (IsSketched c q') (keysFrom c x d) qs :=
    hqs.imp_of_mem fun f hf p _ hp =>
      (hsketched f (List.mem_filter.1 (mem_keysFrom_iff.1 hf).2).1 p).1 hp
  obtain rfl : qs = qs₁ := List.right_unique_forall₂' isSketched_rightUnique hqs₀ hqs₁
  refine ⟨qs₂, hqs₂, ?_⟩
  rw [Property.nameInOrder_append, extend_extend, names_extend]

/-- What an entity gains from a further table: collections along the keys of that table that refer
to its own one, or none if it lacks the identifier that they need. It has one where its table has a
primary key. -/
structure GainsFrom (c : Convention) (schema : Schema) (r : Registry) (t : Table) (e : Entity)
    (ps : List Property) : Prop where
  identified : e.hasIdentifier ↔ e.table.primaryKey ≠ none
  collections : ∀ p ∈ ps, p.kind = .collection
  none_without : e.table.primaryKey = none → ps = []
  along_keys : e.table.primaryKey ≠ none → schema.IsTyped →
    List.Forall₂ r.Collects (t.keysInto c e.table.id) ps

end Entity

theorem FirstPass.eq_append {x x' : ReferenceIndex} {q q' : Registry} {ds ds' : List Entity}
    (hfirst : FirstPass c s schema x ds q) (h : schema.IsExtendedBy t schema')
    (hfirst' : FirstPass c s schema' x' ds' q') :
    ∃ d, ds' = ds ++ [d] ∧ Entity.ofTable c s schema' t = .ok d := by
  have hmade' := hfirst'.made
  rw [h.tables_eq] at hmade'
  obtain ⟨ds₁, ds₂, rfl, hold, hlast⟩ := hmade'.of_append
  obtain ⟨d, _, hd, hnil, rfl⟩ := List.forall₂_cons_left_iff.1 hlast
  obtain rfl := List.forall₂_nil_left_iff.1 hnil
  have hmade := hfirst.made.imp_of_mem fun u hu d _ (hd : Entity.ofTable c s schema u = .ok d) =>
    (h.isPartOf.ofTable_eq hu).symm.trans hd
  obtain rfl : ds = ds₁ := List.right_unique_forall₂' Entity.ofTable_rightUnique hmade hold
  exact ⟨d, rfl, hd⟩

namespace Registry
variable {r' : Registry}

theorem wanted_eq_keysInto (hr' : ofSchema c s schema' = .ok r') (hs : schema'.IsTyped)
    {e : Entity} (he : e ∈ r'.entities) :
    Entity.wanted c ((t.foreignKeys.filter fun f => schema'.hasTable f.target).filter
      (leadsTo c s e.name)) = t.keysInto c e.table.id := by
  rw [Entity.wanted, List.filter_filter, List.filter_filter, Table.keysInto]
  refine List.filter_congr fun f _ => ?_
  rw [Bool.eq_iff_iff]
  have hlead := leadsTo_iff_target_eq (f := f) hr' hs he
  simp only [Bool.and_eq_true, decide_eq_true_eq]
  tauto

/-- What is sketched along the keys of the further table is what an entity gains from it. -/
theorem gainsFrom_of_sketched (h : schema.IsExtendedBy t schema')
    (hr' : ofSchema c s schema' = .ok r') {e : Entity} {qs : List Property}
    (hidentified : e.hasIdentifier ↔ e.table.primaryKey ≠ none)
    (hmem : e.extend (Property.nameInOrder e.names qs) ∈ r'.entities)
    (hqs : List.Forall₂ (Entity.IsSketched c r') (if e.hasIdentifier then Entity.wanted c
      ((t.foreignKeys.filter fun f => schema'.hasTable f.target).filter (leadsTo c s e.name))
      else []) qs) : e.GainsFrom c schema' r' t (Property.nameInOrder e.names qs) := by
  have hnamed : List.Forall₂ Property.IsNamedFrom qs (Property.nameInOrder e.names qs) :=
    Property.nameInOrder_isNamedFrom
  refine ⟨hidentified, fun p hp => ?_, fun hno => ?_, fun hsome hs => ?_⟩
  · obtain ⟨y, hy, hpy, _⟩ := hnamed.exists_left hp
    obtain ⟨f, _, owner, _, hf⟩ := hqs.exists_left hy
    rw [hpy]
    exact ((isCollection_of_sketch hf).named _).kind_eq
  · rw [if_neg (mt hidentified.1 (not_not.2 hno))] at hqs
    obtain rfl : qs = [] := List.forall₂_nil_left_iff.1 hqs
    rfl
  · rw [if_pos (hidentified.2 hsome)] at hqs
    have hkeys := wanted_eq_keysInto (t := t) hr' hs hmem
    simp only [Entity.extend_name, Entity.extend_table] at hkeys
    rw [hkeys] at hqs
    have hsketched : ∀ f ∈ t.keysInto c e.table.id, ∀ p ∈ Property.nameInOrder e.names qs,
        (∃ y, Entity.IsSketched c r' f y ∧ Property.IsNamedFrom y p) → r'.Collects f p := by
      rintro f hf p _ ⟨y, ⟨owner, howner, hy⟩, hpy, _⟩
      have hforeign : f ∈ schema'.foreignKeys := by
        rw [h.foreignKeys_eq]
        exact List.mem_append_right _ (List.mem_filter.1 hf).1
      rw [hpy]
      exact collects_of_isCollection hr' hs hforeign howner ((isCollection_of_sketch hy).named _)
    exact (hqs.trans hnamed fun _ y _ hy hp => ⟨y, hy, hp⟩).imp_of_mem hsketched

/-- If a run over a schema with a further table goes through, then so does the run without it, and
its entities are the first ones of the other run but for the collections that they gain. -/
theorem ofSchema_extended (h : schema.IsExtendedBy t schema')
    (hr' : ofSchema c s schema' = .ok r') : ∃ r es last, ofSchema c s schema = .ok r ∧
      r'.entities = es ++ [last] ∧ last.table = t ∧ List.Forall₂
        (fun e e' => ∃ ps, e' = e.extend ps ∧ e.GainsFrom c schema' r' t ps) r.entities es := by
  obtain ⟨r, hr⟩ := FirstPass.ofSchema_isOk_of_isPartOf h.isPartOf hr'
  obtain ⟨x, ds, q, hfirst, _, hes⟩ := FirstPass.of_ofSchema hr
  obtain ⟨x', ds', q', hfirst', hagree', hes'⟩ := FirstPass.of_ofSchema hr'
  have hsub := hfirst'.mem_of_isPartOf h.isPartOf hfirst.made
  obtain ⟨d, rfl, hd⟩ := hfirst.eq_append h hfirst'
  obtain ⟨es, es₂, hent, hes₁, hes₂⟩ := hes'.of_append
  obtain ⟨last, _, hcollects, hnil, rfl⟩ := List.forall₂_cons_left_iff.1 hes₂
  obtain rfl := List.forall₂_nil_left_iff.1 hnil
  refine ⟨r, es, last, hr, hent, ?_, ?_⟩
  · exact hcollects.agreesAsOwner.table_eq.symm.trans (Entity.isCompleted_of_ofTable hd).table_eq
  · have hgrown : List.Forall₂ (fun e e' => ∃ qs, List.Forall₂ (Entity.IsSketched c r')
        (if e.hasIdentifier then Entity.wanted c ((t.foreignKeys.filter fun f =>
          schema'.hasTable f.target).filter (leadsTo c s e.name)) else []) qs ∧
        e' = e.extend (Property.nameInOrder e.names qs)) r.entities es := by
      refine hes.flip.trans hes₁ fun e d e' he he' => ?_
      rw [← Entity.isSketched_congr hagree', ← he.agreesAsOwner.name_eq]
      exact he.extend he' (h.leadingTo_eq hfirst.indexed hfirst'.indexed _) fun f hf _ =>
        hfirst'.isSketched_iff hfirst hsub (mem_foreignKeys_of_leadingTo hfirst.indexed hf)
    refine hgrown.imp_of_mem ?_
    rintro e he _ hmem ⟨qs, hqs, rfl⟩
    have hmem' := List.mem_append_left [last] hmem
    rw [← hent] at hmem'
    obtain ⟨_, _, _, _, _, _, _, hd⟩ := (ofSchema_eq_ok hr).2.exists_left he
    exact ⟨_, rfl, gainsFrom_of_sketched h hr' hd.hasIdentifier_iff hmem' hqs⟩

end Registry

def ForeignKey.ofReturn : ForeignKey where
  table := { name := "returns" }
  target := { name := "orders" }
  columns := [{ name := "order" }]
  columns_ne := by simp
  paired := .inl rfl

def Table.returns : Table where
  id := { name := "returns" }
  columns := [{ name := "id" }, { name := "order" }]
  primaryKey := some .ofId
  foreignKeys := [.ofReturn]
  comment := .null
  names_plain := by decide
  names_nodup := by decide
  key_columns := by decide
  foreign_owner := by decide
  foreign_columns := by decide

def Schema.shopWithReturns : Schema where
  tables := [.customers, .orders, .returns]
  ids_plain := by decide
  ids_nodup := by decide
  targets_plain := by decide
  targets_known := by decide

theorem Schema.shop_isExtendedBy_returns : shop.IsExtendedBy .returns shopWithReturns :=
  ⟨rfl, by decide⟩

/-- The entity of the orders gains one collection, along the key of the returns. -/
theorem Registry.ofSchema_extended_shop : ∃ r r' es last, ofSchema .plain {} .shop = .ok r ∧
    ofSchema .plain {} .shopWithReturns = .ok r' ∧
    Schema.shop.IsExtendedBy .returns .shopWithReturns ∧
    r'.entities = es ++ [last] ∧ last.table = .returns ∧
    List.Forall₂ (fun e e' => ∃ ps, e' = e.extend ps ∧
      e.GainsFrom .plain .shopWithReturns r' .returns ps) r.entities es ∧
    ∃ e ∈ r.entities, ∃ e' ∈ es, ∃ p, e.table = .orders ∧ e' = e.extend [p] ∧
      p.kind = .collection ∧ r'.Collects .ofReturn p := by
  have hrun : (ofSchema .plain {} .shopWithReturns).toOption.any fun _ => true := by
    decide +kernel
  have horders : (ofSchema .plain {} .shop).toOption.any fun r =>
      ∃ e ∈ r.entities, e.table = .orders := by decide +kernel
  obtain ⟨r', hr', _⟩ := exists_ok_of_toOption_any hrun
  obtain ⟨r₀, hr₀, hfound⟩ := exists_ok_of_toOption_any horders
  obtain ⟨r, es, last, hr, hes, hlast, hall⟩ :=
    ofSchema_extended Schema.shop_isExtendedBy_returns hr'
  obtain rfl := Except.ok.inj (hr₀.symm.trans hr)
  obtain ⟨e, he, htable⟩ := of_decide_eq_true hfound
  obtain ⟨e', he', ps, hextend, hgains⟩ := hall.exists_right he
  have hinto : Table.returns.keysInto .plain e.table.id = [.ofReturn] := by
    rw [htable]
    decide
  have hkeys := hgains.along_keys (by rw [htable]; decide) (by decide)
  rw [hinto] at hkeys
  obtain ⟨p, _, hp, hnil, rfl⟩ := List.forall₂_cons_left_iff.1 hkeys
  obtain rfl := List.forall₂_nil_left_iff.1 hnil
  exact ⟨_, r', es, last, hr, hr', Schema.shop_isExtendedBy_returns, hes, hlast, hall, e, he, e',
    he', p, htable, hextend, hgains.collections p List.mem_cons_self, hp⟩

end EntityMapping
