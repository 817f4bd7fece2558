import EntityMapping.Proofs.Derivation.Run

/-! # What a run needs to go through

The first pass makes one entity of each table, whatever the other tables are as long as the same
targets are in the schema. From then on all that matters is which keys lead to an entity and who
owns them, so that two runs are compared by the entities of their first passes.
-/
namespace EntityMapping
open Column

variable {c : Convention} {s : Settings} {schema schema' : Schema}

theorem Outcome.andThen_congr {σ α β : Type} {o : Outcome σ α} {f g : α → σ → Outcome σ β}
    (h : ∀ a t ws, o = ⟨.ok a, t, ws⟩ → f a t = g a t) : o.andThen f = o.andThen g := by
  rcases o with ⟨_ | a, t, ws⟩
  · rfl
  · rw [andThen_ok, andThen_ok, h a t ws rfl]

theorem Draft.addReferences_congr {fs : List ForeignKey}
    (h : ∀ f ∈ fs, schema.hasTable f.target = schema'.hasTable f.target) (d : Draft) :
    addReferences c s schema fs d = addReferences c s schema' fs d := by
  induction fs generalizing d with
  | nil => rfl
  | cons f fs ih =>
    have hrest := ih fun g hg => h g (List.mem_cons_of_mem _ hg)
    rw [addReferences, addReferences, h f List.mem_cons_self]
    simp only [hrest]

/-- What becomes of a table depends on the schema only through the targets of its keys. -/
theorem Entity.ofTable_congr {t : Table}
    (h : ∀ f ∈ t.foreignKeys, schema.hasTable f.target = schema'.hasTable f.target) :
    Entity.ofTable c s schema t = Entity.ofTable c s schema' t := by
  rw [ofTable, ofTable]
  cases hb : Entity.blank c s t with
  | error fault => rfl
  | ok b =>
    have hcomplete : Draft.complete c s schema ⟨b, {}⟩ = Draft.complete c s schema' ⟨b, {}⟩ := by
      rw [Draft.complete, Draft.complete]
      congr 1
      refine Outcome.andThen_congr fun v d ws hd => ?_
      obtain ⟨o, hv⟩ := Draft.isVersioned_of_eq_ok hb hd
      rw [Draft.addReferencesOf, Draft.addReferencesOf, hv.table_eq hb]
      exact Draft.addReferences_congr h d
    simp only [hcomplete]

/-- The index of the keys, the entities of the tables, and the registry in which they are found
before the second pass. -/
structure FirstPass (c : Convention) (s : Settings) (schema : Schema) (x : ReferenceIndex)
    (ds : List Entity) (q : Registry) : Prop where
  indexed : ReferenceIndex.ofSchema c s schema = .ok x
  made : List.Forall₂ (fun t d => Entity.ofTable c s schema t = .ok d) schema.tables ds
  entities_eq : q.entities = ds.map Entity.freeze
  sound : q.Sound

namespace FirstPass
variable {x x' : ReferenceIndex} {ds ds' : List Entity} {q q' : Registry}

theorem tables_eq (h : FirstPass c s schema x ds q) :
    schema.tables = q.entities.map Entity.table := by
  rw [h.entities_eq, List.map_map]
  exact h.made.eq_map fun _ _ hd => (Entity.isCompleted_of_ofTable hd).table_eq.symm

theorem names_nodup (h : FirstPass c s schema x ds q) :
    (ds.map fun d => d.name.key).Nodup := by
  have hn := h.sound.names_nodup
  rwa [Registry.nameKeys, h.entities_eq, List.map_map] at hn

theorem isSome_ofTable? (h : FirstPass c s schema x ds q) (n : Name) :
    ∀ f ∈ x.leadingTo n, (q.ofTable? f.table).isSome :=
  Registry.isSome_ofTable?_of_leadingTo h.indexed h.sound h.tables_eq n

theorem ofTable?_eq (h : FirstPass c s schema x ds q) {d : Entity} (hd : d ∈ ds) {f : ForeignKey}
    (hf : f ∈ d.table.foreignKeys) : q.ofTable? f.table = some d.freeze := by
  have hmem : d.freeze ∈ q.entities := by
    rw [h.entities_eq]
    exact List.mem_map_of_mem hd
  exact h.sound.ofTable?_eq hmem (TableId.same_iff.1 (d.table.foreign_owner f hf)).symm

/-- Different names are all that it takes to enter the entities of all tables. -/
theorem exists_registry (hx : ReferenceIndex.ofSchema c s schema = .ok x)
    (hds : List.Forall₂ (fun t d => Entity.ofTable c s schema t = .ok d) schema.tables ds)
    (hn : (ds.map fun d => d.name.key).Nodup) :
    ∃ q ws, FirstPass c s schema x ds q ∧
      Registry.bindAll c s schema schema.tables {} = ⟨.ok (ds.map .ofEntity), q, ws⟩ := by
  obtain ⟨bs, q, ws, hbind⟩ := Registry.bindAll_isOk (r := {}) hds hn
  obtain ⟨es, hall, rfl, hent, hq, _⟩ := Registry.bindAll_tables_eq_ok hbind
  obtain rfl : ds = es := List.right_unique_forall₂' Entity.ofTable_rightUnique hds hall
  exact ⟨q, ws, ⟨hx, hds, hent, hq⟩, hbind⟩

theorem exists_owner (h : FirstPass c s schema x ds q) {f : ForeignKey}
    (hf : f ∈ schema.foreignKeys) : ∃ d ∈ ds, f ∈ d.table.foreignKeys := by
  obtain ⟨t, ht, hft⟩ := Schema.mem_foreignKeys_iff.1 hf
  obtain ⟨d, hd, hmade⟩ := h.made.exists_right ht
  exact ⟨d, hd, (Entity.isCompleted_of_ofTable hmade).table_eq.symm ▸ hft⟩

theorem ofTable?_congr (h : FirstPass c s schema x ds q) (h' : FirstPass c s schema' x' ds' q')
    (hds : ∀ d ∈ ds', d ∈ ds) {f : ForeignKey} (hf : f ∈ schema'.foreignKeys) :
    q'.ofTable? f.table = q.ofTable? f.table := by
  obtain ⟨d, hd, hfd⟩ := h'.exists_owner hf
  rw [h'.ofTable?_eq hd hfd, h.ofTable?_eq (hds d hd) hfd]

theorem isSketched_iff (h : FirstPass c s schema x ds q) (h' : FirstPass c s schema' x' ds' q')
    (hds : ∀ d ∈ ds', d ∈ ds) {f : ForeignKey} (hf : f ∈ schema'.foreignKeys) {p : Property} :
    Entity.IsSketched c q' f p ↔ Entity.IsSketched c q f p := by
  rw [Entity.IsSketched, Entity.IsSketched, h.ofTable?_congr h' hds hf]

end FirstPass

theorem Entity.MayCollect.of_subset {x x' : ReferenceIndex} {q q' : Registry} {e : Entity}
    (h : e.MayCollect c x q) (hkeys : ∀ f ∈ x'.leadingTo e.name, f ∈ x.leadingTo e.name)
    (howners : ∀ f ∈ x'.leadingTo e.name, q'.ofTable? f.table = q.ofTable? f.table) :
    e.MayCollect c x' q' := by
  have hwanted : ∀ f ∈ wanted c (x'.leadingTo e.name), f ∈ wanted c (x.leadingTo e.name) :=
    fun f hf => List.mem_filter.2 ⟨hkeys f (List.mem_filter.1 hf).1, (List.mem_filter.1 hf).2⟩
  refine ⟨h.name_plain, fun hid => ⟨fun f hf => (h.sketched hid).answered f (hkeys f hf), ?_⟩,
    fun hne => h.names ?_, fun hid hne => h.warned hid ?_⟩
  · intro f hf
    obtain ⟨p, ⟨owner, ho, hp⟩, hplain⟩ := (h.sketched hid).sketched f (hwanted f hf)
    exact ⟨p, ⟨owner, (howners f (List.mem_filter.1 hf).1).trans ho, hp⟩, hplain⟩
  · obtain ⟨f, hf⟩ := List.exists_mem_of_ne_nil _ hne
    obtain ⟨hid, hf⟩ := mem_keysFrom_iff.1 hf
    exact List.ne_nil_of_mem (mem_keysFrom_iff.2 ⟨hid, hwanted f hf⟩)
  · obtain ⟨f, hf⟩ := List.exists_mem_of_ne_nil _ hne
    exact List.ne_nil_of_mem (hkeys f hf)

/-- The tables are tables of the other schema, and their keys have the same targets within both. -/
structure Schema.IsPartOf (schema' schema : Schema) : Prop where
  tables : ∀ t ∈ schema'.tables, t ∈ schema.tables
  targets : ∀ f ∈ schema'.foreignKeys, schema'.hasTable f.target = schema.hasTable f.target

namespace Schema.IsPartOf

theorem foreignKeys (h : schema'.IsPartOf schema) :
    ∀ f ∈ schema'.foreignKeys, f ∈ schema.foreignKeys := by
  intro f hf
  obtain ⟨t, ht, hft⟩ := mem_foreignKeys_iff.1 hf
  exact mem_foreignKeys_iff.2 ⟨t, h.tables t ht, hft⟩

theorem leadingTo {x x' : ReferenceIndex} (h : schema'.IsPartOf schema)
    (hx : ReferenceIndex.ofSchema c s schema = .ok x)
    (hx' : ReferenceIndex.ofSchema c s schema' = .ok x') {n : Name} :
    ∀ f ∈ x'.leadingTo n, f ∈ x.leadingTo n := by
  intro f hf
  rw [leadingTo_ofSchema hx', List.mem_filter, List.mem_filter] at hf
  obtain ⟨⟨hf, hin⟩, hlead⟩ := hf
  rw [leadingTo_ofSchema hx, List.mem_filter, List.mem_filter]
  exact ⟨⟨h.foreignKeys f hf, h.targets f hf ▸ hin⟩, hlead⟩

theorem ofTable_eq (h : schema'.IsPartOf schema) {t : Table} (ht : t ∈ schema'.tables) :
    Entity.ofTable c s schema' t = Entity.ofTable c s schema t :=
  Entity.ofTable_congr fun f hf => h.targets f (mem_foreignKeys_iff.2 ⟨t, ht, hf⟩)

end Schema.IsPartOf

namespace FirstPass
variable {x x' : ReferenceIndex} {ds ds' : List Entity} {q q' : Registry}

theorem mem_of_isPartOf (h : FirstPass c s schema x ds q) (hpart : schema'.IsPartOf schema)
    (hds' : List.Forall₂ (fun t d => Entity.ofTable c s schema' t = .ok d) schema'.tables ds') :
    ∀ d ∈ ds', d ∈ ds := by
  intro d' hd'
  obtain ⟨t, ht, hmade'⟩ := hds'.exists_left hd'
  obtain ⟨d, hd, hmade⟩ := h.made.exists_right (hpart.tables t ht)
  rw [hpart.ofTable_eq ht] at hmade'
  rwa [Except.ok.inj (hmade'.symm.trans hmade)]

theorem names_nodup_of_isPartOf (h : FirstPass c s schema x ds q)
    (hpart : schema'.IsPartOf schema)
    (hds' : List.Forall₂ (fun t d => Entity.ofTable c s schema' t = .ok d) schema'.tables ds') :
    (ds'.map fun d => d.name.key).Nodup := by
  have hsub := h.mem_of_isPartOf hpart hds'
  have htables : schema'.tables.map (fun t => t.id.key) = ds'.map fun d => d.table.id.key :=
    hds'.map_eq_map fun t d hd => by rw [(Entity.isCompleted_of_ofTable hd).table_eq]
  have hnodup : ds'.Nodup := .of_map _ (htables ▸ schema'.ids_nodup)
  refine hnodup.map_on fun d hd e he hde => ?_
  exact List.inj_on_of_nodup_map h.names_nodup (hsub d hd) (hsub e he) hde

/-- A successful run consists of a first pass that hinders nothing and of what the second one makes
of its entities. -/
theorem of_ofSchema {r : Registry} (h : Registry.ofSchema c s schema = .ok r) :
    ∃ x ds q, FirstPass c s schema x ds q ∧ q.AgreesOnOwners r ∧
      List.Forall₂ (fun d e => Entity.CollectsTo c x q d.freeze e) ds r.entities := by
  obtain ⟨x, bs, q, _, _, _, hx, hbind, hcollect⟩ := Registry.passes_of_ofSchema h
  obtain ⟨ds, hds, rfl, hent, hq, htables⟩ := Registry.bindAll_tables_eq_ok hbind
  have hfirst : FirstPass c s schema x ds q := ⟨hx, hds, hent, hq⟩
  rw [← List.nil_append (ds.map Entity.freeze)] at hent
  obtain ⟨es, hes, hfinal, hagree⟩ := Registry.collectAll_eq_ok hcollect hq q.agreesOnOwners_refl
    hent fun d _ => hfirst.isSome_ofTable? d.name
  exact ⟨x, ds, q, hfirst, hagree, hfinal ▸ hes⟩

/-- A run over a part of a schema goes through if the run over the whole schema does. -/
theorem ofSchema_isOk_of_isPartOf {r : Registry} (hpart : schema'.IsPartOf schema)
    (h : Registry.ofSchema c s schema = .ok r) : ∃ r', Registry.ofSchema c s schema' = .ok r' := by
  obtain ⟨x, ds, q, hfirst, _, hes⟩ := of_ofSchema h
  have hindexed := ReferenceIndex.ofSchema_isOk_iff.1 ⟨x, hfirst.indexed⟩
  obtain ⟨x', hx'⟩ := ReferenceIndex.ofSchema_isOk_iff.2 fun f hf hin =>
    hindexed f (hpart.foreignKeys f hf) (hpart.targets f hf ▸ hin)
  obtain ⟨ds', hds'⟩ : ∃ ds', List.Forall₂
      (fun t d => Entity.ofTable c s schema' t = .ok d) schema'.tables ds' := by
    refine List.exists_forall₂ fun t ht => ?_
    obtain ⟨d, _, hd⟩ := hfirst.made.exists_right (hpart.tables t ht)
    exact ⟨d, (hpart.ofTable_eq ht).trans hd⟩
  have hsub := hfirst.mem_of_isPartOf hpart hds'
  obtain ⟨q', ws, hfirst', hbind⟩ :=
    exists_registry hx' hds' (hfirst.names_nodup_of_isPartOf hpart hds')
  have hmay : ∀ d ∈ ds', d.freeze.MayCollect c x' q' := by
    intro d hd
    obtain ⟨e, _, hcollects⟩ := hes.exists_right (hsub d hd)
    exact hcollects.may.of_subset (hpart.leadingTo hfirst.indexed hx') fun f hf =>
      hfirst.ofTable?_congr hfirst' hsub (mem_foreignKeys_of_leadingTo hx' hf)
  have hent : q'.entities = [] ++ ds'.map Entity.freeze := hfirst'.entities_eq
  obtain ⟨bs, r', us, hcollect⟩ := Registry.collectAll_isOk hfirst'.sound
    q'.agreesOnOwners_refl hent (fun d _ => hfirst'.isSome_ofTable? d.name) hmay
  refine ⟨r', ?_⟩
  rw [Registry.ofSchema, Registry.derive, hx', Outcome.ask_ok, hbind, Outcome.andThen_ok, hcollect]
  rfl

end FirstPass
end EntityMapping
