import EntityMapping.Proofs.Derivation.Collection
import EntityMapping.Proofs.Parallel

/-! # What a run over a schema leaves behind

The second pass appends collections to the entities of the first pass and changes nothing that a
collection is made from, so that every collection can be read off the registry at the end. A
successful run is then described entity by entity, in the order of the tables.
-/
namespace EntityMapping
open Column

variable {c : Convention} {s : Settings} {schema : Schema}

/-- The entities are alike in what a collection takes from the owner of its key. -/
structure Entity.AgreesAsOwner (d e : Entity) : Prop where
  name_eq : d.name = e.name
  table_eq : d.table = e.table
  references_eq : d.references = e.references

namespace Entity

theorem agreesAsOwner_refl (e : Entity) : e.AgreesAsOwner e := ⟨rfl, rfl, rfl⟩

theorem AgreesAsOwner.trans {d e f : Entity} (h : d.AgreesAsOwner e) (h' : e.AgreesAsOwner f) :
    d.AgreesAsOwner f :=
  ⟨h.name_eq.trans h'.name_eq, h.table_eq.trans h'.table_eq,
    h.references_eq.trans h'.references_eq⟩

theorem AgreesAsOwner.referenceFor?_eq {d e : Entity} (h : d.AgreesAsOwner e) (f : ForeignKey) :
    d.referenceFor? f = e.referenceFor? f := by
  rw [referenceFor?, referenceFor?, h.references_eq]

theorem agreesAsOwner_extend {e : Entity} {ps : List Property}
    (h : ∀ p ∈ ps, p.kind = .collection) : e.AgreesAsOwner (e.extend ps) := by
  refine ⟨rfl, rfl, ?_⟩
  have hnone : ps.filter (fun p => p.kind ∈ [RoleKind.reference]) = [] := by
    rw [List.filter_eq_nil_iff]
    intro p hp
    simp [h p hp]
  simp only [references, ofKinds, extend_properties, List.filter_append, hnone, List.append_nil]

theorem AgreesAsOwner.collectionSketch_eq {d e : Entity} (h : d.AgreesAsOwner e)
    (f : ForeignKey) : collectionSketch c d f = collectionSketch c e f := by
  simp only [collectionSketch, h.name_eq, h.table_eq, h.referenceFor?_eq]

theorem AgreesAsOwner.isCollection {d e : Entity} (h : d.AgreesAsOwner e) {f : ForeignKey}
    {p : Property} (hp : p.IsCollection c d f) : p.IsCollection c e f := by
  obtain ⟨⟨i, l, hi, hl, hr⟩, hcols, htype⟩ := hp
  refine ⟨⟨i, l, hi, hl, ?_⟩, hcols, htype.trans h.name_eq⟩
  rw [hr, h.name_eq, h.referenceFor?_eq]

end Entity

structure Registry.AgreesOnOwners (q r : Registry) : Prop where
  entities : List.Forall₂ Entity.AgreesAsOwner q.entities r.entities
  byTable_eq : q.byTable = r.byTable
  imports_eq : q.imports = r.imports

namespace Registry

theorem agreesOnOwners_refl (r : Registry) : r.AgreesOnOwners r :=
  ⟨List.forall₂_same.2 fun e _ => e.agreesAsOwner_refl, rfl, rfl⟩

theorem find?_agrees {ds es : List Entity} (h : List.Forall₂ Entity.AgreesAsOwner ds es)
    (n : Name) : Option.Rel Entity.AgreesAsOwner (ds.find? fun e => e.name.same n)
      (es.find? fun e => e.name.same n) := by
  induction h with
  | nil => exact .none
  | @cons d e ds es hde _ ih =>
    rw [List.find?_cons, List.find?_cons, hde.name_eq]
    split
    · exact .some hde
    · exact ih

theorem AgreesOnOwners.ofTable? {q r : Registry} (h : q.AgreesOnOwners r) (id : TableId) :
    Option.Rel Entity.AgreesAsOwner (q.ofTable? id) (r.ofTable? id) := by
  rw [Registry.ofTable?, Registry.ofTable?, h.byTable_eq]
  cases r.byTable.get? id.key with
  | none => exact .none
  | some n => exact find?_agrees h.entities n

theorem AgreesOnOwners.isSome_ofTable? {q r : Registry} (h : q.AgreesOnOwners r) {id : TableId}
    (hq : (q.ofTable? id).isSome) : (r.ofTable? id).isSome := by
  have hrel := h.ofTable? id
  generalize q.ofTable? id = a at hq hrel
  generalize r.ofTable? id = b at hrel ⊢
  cases hrel with
  | none => exact hq
  | some _ => rfl

end Registry

namespace Entity

theorem isSketched_congr {q r : Registry} (h : q.AgreesOnOwners r) :
    IsSketched c q = IsSketched c r := by
  funext f p
  rw [eq_iff_iff, IsSketched, IsSketched]
  have ho := h.ofTable? f.table
  generalize q.ofTable? f.table = a at ho
  generalize r.ofTable? f.table = b at ho
  cases ho with
  | none => simp
  | some hab => simp [hab.collectionSketch_eq]

/-- The keys along which an entity gets collections: none if it lacks the identifier that they
need. -/
def keysFrom (c : Convention) (x : ReferenceIndex) (e : Entity) : List ForeignKey :=
  if e.hasIdentifier then wanted c (x.leadingTo e.name) else []

theorem mem_keysFrom_iff {x : ReferenceIndex} {e : Entity} {f : ForeignKey} :
    f ∈ keysFrom c x e ↔ e.hasIdentifier ∧ f ∈ wanted c (x.leadingTo e.name) := by
  unfold keysFrom
  split <;> simp_all

/-- Nothing hinders the second pass over an entity: its collections can be had, or it can be told
that it has to do without them. -/
structure MayCollect (c : Convention) (x : ReferenceIndex) (r : Registry) (e : Entity) : Prop where
  name_plain : e.name.isPlain
  sketched : e.hasIdentifier → CanSketch c r (x.leadingTo e.name)
  names : keysFrom c x e ≠ [] → e.HasPlainNames
  warned : ¬ e.hasIdentifier → x.leadingTo e.name ≠ [] →
    ∃ m, (Warning.collectionsSkipped e.name e.table.id).message = .ok m

/-- The entity as the second pass leaves it: with the collections that are sketched for it. -/
structure CollectsTo (c : Convention) (x : ReferenceIndex) (r : Registry) (e e' : Entity) :
    Prop where
  may : e.MayCollect c x r
  grown : ∃ qs, List.Forall₂ (IsSketched c r) (keysFrom c x e) qs ∧
    e' = e.extend (Property.nameInOrder e.names qs)

section
variable {x : ReferenceIndex} {r : Registry} {e e' : Entity}

theorem collect_of_not_plain (h : ¬ e.name.isPlain) :
    e.collect c x r = .refused (.unanswered .notName) e := by
  simp [collect, Document.asKey, h, Outcome.ask]

theorem collect_of_hasIdentifier (h : e.name.isPlain) (hid : e.hasIdentifier) :
    e.collect c x r = addCollections c r (x.leadingTo e.name) e := by
  rw [collect, Document.asKey_eq_ok.2 ⟨h, rfl⟩, Outcome.ask_ok]
  split
  · rename_i hnil
    rw [hnil]
    rfl
  · rw [if_pos hid]

theorem collect_of_not_hasIdentifier (h : e.name.isPlain) (hid : ¬ e.hasIdentifier) :
    e.collect c x r = if x.leadingTo e.name = [] then .done [] e
      else .refused (.noIdentifier e.name e.table.id) e := by
  rw [collect, Document.asKey_eq_ok.2 ⟨h, rfl⟩, Outcome.ask_ok]
  split
  · rename_i hnil
    rw [if_pos hnil]
  · rename_i hne
    rw [if_neg hne, if_neg hid]

theorem canSketch_congr {q : Registry} (h : q.AgreesOnOwners r) {fs : List ForeignKey} :
    CanSketch c q fs ↔ CanSketch c r fs := by
  have hs := isSketched_congr (c := c) h
  exact ⟨fun ⟨ha, hq⟩ => ⟨ha, hs ▸ hq⟩, fun ⟨ha, hq⟩ => ⟨ha, hs ▸ hq⟩⟩

theorem mayCollect_congr {q : Registry} (h : q.AgreesOnOwners r) :
    e.MayCollect c x q ↔ e.MayCollect c x r :=
  ⟨fun ⟨hp, hs, hn, hw⟩ => ⟨hp, fun hid => (canSketch_congr h).1 (hs hid), hn, hw⟩,
    fun ⟨hp, hs, hn, hw⟩ => ⟨hp, fun hid => (canSketch_congr h).2 (hs hid), hn, hw⟩⟩

theorem CollectsTo.congr {q : Registry} (h : q.AgreesOnOwners r) (he : CollectsTo c x r e e') :
    CollectsTo c x q e e' :=
  ⟨(mayCollect_congr h).2 he.may, isSketched_congr (c := c) h ▸ he.grown⟩

theorem CollectsTo.parts (h : CollectsTo c x r e e') :
    ∃ ps, e' = e.extend ps ∧ List.Forall₂
      (fun f p => ∃ owner, r.ofTable? f.table = some owner ∧ p.IsCollection c owner f)
      (keysFrom c x e) ps := by
  obtain ⟨qs, hqs, rfl⟩ := h.grown
  refine ⟨_, rfl, hqs.trans Property.nameInOrder_isNamedFrom ?_⟩
  rintro f q p ⟨owner, ho, hq⟩ ⟨hp, _⟩
  rw [hp]
  exact ⟨owner, ho, (isCollection_of_sketch hq).named _⟩

theorem CollectsTo.agreesAsOwner (h : CollectsTo c x r e e') : e.AgreesAsOwner e' := by
  obtain ⟨ps, rfl, hall⟩ := h.parts
  apply agreesAsOwner_extend
  intro p hp
  obtain ⟨f, _, owner, _, hf⟩ := hall.exists_left hp
  exact hf.kind_eq

theorem collectsTo_of_eq_ok {ps : List Property} {ws : List Warning}
    (h : e.collect c x r = ⟨.ok ps, e', ws⟩)
    (howned : ∀ f ∈ x.leadingTo e.name, (r.ofTable? f.table).isSome) :
    CollectsTo c x r e e' := by
  by_cases hp : e.name.isPlain
  · by_cases hid : e.hasIdentifier
    · have hkeys : keysFrom c x e = wanted c (x.leadingTo e.name) := if_pos hid
      rw [collect_of_hasIdentifier hp hid, addCollections_eq_ok howned] at h
      obtain ⟨hsketch, hnames, qs, hqs, rfl, rfl, _⟩ := h
      rw [← hkeys] at hnames hqs
      exact ⟨⟨hp, fun _ => hsketch, hnames, fun hno => absurd hid hno⟩, qs, hqs, rfl⟩
    · have hkeys : keysFrom c x e = [] := if_neg hid
      rw [collect_of_not_hasIdentifier hp hid] at h
      split at h
      · rename_i hnil
        obtain ⟨rfl, rfl, _⟩ := Outcome.done_eq_ok.1 h
        exact ⟨⟨hp, fun hyes => absurd hyes hid, fun hne => absurd hkeys hne,
          fun _ hne => absurd hnil hne⟩, [], hkeys ▸ .nil, by simp⟩
      · exact absurd h Outcome.refused_ne_ok
  · rw [collect_of_not_plain hp] at h
    exact absurd h Outcome.refused_ne_ok

theorem collectsTo_of_noIdentifier {n : Name} {id : TableId} {m : String}
    (h : (e.collect c x r).answer = .error (.noIdentifier n id))
    (hm : (Warning.collectionsSkipped n id).message = .ok m) : CollectsTo c x r e e := by
  by_cases hp : e.name.isPlain
  · by_cases hid : e.hasIdentifier
    · rw [collect_of_hasIdentifier hp hid] at h
      obtain ⟨_, hfault⟩ := answer_addCollections_eq_error h
      cases hfault
    · have hkeys : keysFrom c x e = [] := if_neg hid
      rw [collect_of_not_hasIdentifier hp hid] at h
      split at h
      · cases h
      · cases h
        exact ⟨⟨hp, fun hyes => absurd hyes hid, fun hne => absurd hkeys hne, fun _ _ => ⟨m, hm⟩⟩,
          [], hkeys ▸ .nil, by simp⟩
  · rw [collect_of_not_plain hp] at h
    cases h

theorem CanSketch.exists_sketches {fs : List ForeignKey} (h : CanSketch c r fs) :
    ∃ qs, List.Forall₂ (IsSketched c r) (wanted c fs) qs := by
  refine List.exists_forall₂ fun f hf => ?_
  obtain ⟨q, hq, _⟩ := h.sketched f hf
  exact ⟨q, hq⟩

/-- Where nothing hinders it, an entity gets its collections, or it is told that it has to do
without them. -/
theorem MayCollect.ends (h : e.MayCollect c x r)
    (howned : ∀ f ∈ x.leadingTo e.name, (r.ofTable? f.table).isSome) :
    (∃ ps e' ws, e.collect c x r = ⟨.ok ps, e', ws⟩) ∨
      e.collect c x r = .refused (.noIdentifier e.name e.table.id) e ∧
        ∃ m, (Warning.collectionsSkipped e.name e.table.id).message = .ok m := by
  by_cases hid : e.hasIdentifier
  · have hkeys : keysFrom c x e = wanted c (x.leadingTo e.name) := if_pos hid
    obtain ⟨qs, hqs⟩ := (h.sketched hid).exists_sketches
    rw [collect_of_hasIdentifier h.name_plain hid]
    exact .inl ⟨_, _, _, (addCollections_eq_ok howned).2
      ⟨h.sketched hid, hkeys ▸ h.names, qs, hqs, rfl, rfl, rfl⟩⟩
  · rw [collect_of_not_hasIdentifier h.name_plain hid]
    split
    · exact .inl ⟨[], e, [], rfl⟩
    · rename_i hne
      exact .inr ⟨rfl, h.warned hid hne⟩

end

end Entity

namespace Registry
variable {x : ReferenceIndex}

theorem AgreesOnOwners.trans {p q r : Registry} (h : p.AgreesOnOwners q)
    (h' : q.AgreesOnOwners r) : p.AgreesOnOwners r :=
  ⟨h.entities.trans h'.entities fun _ _ _ => Entity.AgreesAsOwner.trans,
    h.byTable_eq.trans h'.byTable_eq, h.imports_eq.trans h'.imports_eq⟩

theorem AgreesOnOwners.sound {q r : Registry} (h : q.AgreesOnOwners r) (hq : q.Sound) :
    r.Sound := by
  refine ⟨?_, ?_, ?_, ?_⟩
  · have hn : q.nameKeys = r.nameKeys :=
      h.entities.map_eq_map fun _ _ he => congrArg Document.key he.name_eq
    exact hn ▸ hq.names_nodup
  · have ht : q.tableKeys = r.tableKeys :=
      h.entities.map_eq_map fun _ _ he => congrArg (fun t => t.id.key) he.table_eq
    exact ht ▸ hq.tables_nodup
  · intro e he
    obtain ⟨d, hd, hde⟩ := h.entities.exists_left he
    rw [← h.byTable_eq, ← hde.table_eq, ← hde.name_eq]
    exact hq.located d hd
  · have hn : q.names = r.names := h.entities.map_eq_map fun _ _ he => he.name_eq
    rw [← h.imports_eq, hq.imports_eq, hn]

theorem agreesOnOwners_replace {q r : Registry} {ds es : List Entity} {e e' : Entity}
    (hq : q.entities = ds ++ e :: es) (hr : r.entities = ds ++ e' :: es)
    (hby : q.byTable = r.byTable) (himports : q.imports = r.imports) (he : e.AgreesAsOwner e') :
    q.AgreesOnOwners r := by
  refine ⟨?_, hby, himports⟩
  rw [hq, hr]
  have hrefl : ∀ l : List Entity, List.Forall₂ Entity.AgreesAsOwner l l := fun l =>
    List.forall₂_same.2 fun e _ => e.agreesAsOwner_refl
  exact List.rel_append (hrefl ds) (.cons he (hrefl es))

theorem collect_ofEntity {r : Registry} {e : Entity} (hget : r.get? e.name = some e.freeze) :
    r.collect c x (.ofEntity e) =
      (r.addCollectionsOf c x e.freeze).map (·, (TableBinding.ofEntity e).finished) :=
  collect_of_registered rfl hget

/-- One entity at a time gets its collections. -/
theorem collect_eq_ok {r r' : Registry} {ds es : List Entity} {e : Entity} {ws : List Warning}
    {a : List Property × TableBinding} (h : r.collect c x (.ofEntity e) = ⟨.ok a, r', ws⟩)
    (hr : r.Sound) (hent : r.entities = ds ++ e.freeze :: es)
    (howned : ∀ f ∈ x.leadingTo e.name, (r.ofTable? f.table).isSome) :
    ∃ e', Entity.CollectsTo c x r e.freeze e' ∧ r'.entities = ds ++ e' :: es ∧
      r.AgreesOnOwners r' := by
  have hmem : e.freeze ∈ r.entities := by simp [hent]
  have hget : r.get? e.name = some e.freeze := hr.get?_name hmem
  have finish : ∀ e', Entity.CollectsTo c x r e.freeze e' → r'.entities = ds ++ e' :: es →
      r.byTable = r'.byTable → r.imports = r'.imports →
      ∃ e', Entity.CollectsTo c x r e.freeze e' ∧ r'.entities = ds ++ e' :: es ∧
        r.AgreesOnOwners r' := fun e' hc he hby hi =>
    ⟨e', hc, he, agreesOnOwners_replace hent he hby hi hc.agreesAsOwner⟩
  rw [collect_ofEntity hget, Outcome.map_eq_ok] at h
  obtain ⟨ps, h, _⟩ := h
  unfold addCollectionsOf at h
  generalize ho : e.freeze.collect c x r = o at h
  rcases o with ⟨refusal | ps, e', us⟩
  · cases refusal with
    | noIdentifier n id =>
      obtain ⟨⟨m, hm⟩, _, h, _⟩ := Outcome.warn_eq_ok.1 h
      obtain ⟨_, rfl, _⟩ := Outcome.done_eq_ok.1 h
      have hc := Entity.collectsTo_of_noIdentifier (congrArg Outcome.answer ho) hm
      exact finish e.freeze hc hent rfl rfl
    | _ => cases h
  · have hc : Entity.CollectsTo c x r e.freeze e' := Entity.collectsTo_of_eq_ok ho howned
    cases h
    have hname : e.freeze.name = e'.name := hc.agreesAsOwner.name_eq
    exact finish e' hc (entities_update hr.names_nodup hent hname) rfl rfl

theorem collect_isOk {r : Registry} {e : Entity} (hget : r.get? e.name = some e.freeze)
    (howned : ∀ f ∈ x.leadingTo e.name, (r.ofTable? f.table).isSome)
    (h : e.freeze.MayCollect c x r) : ∃ a r' ws, r.collect c x (.ofEntity e) = ⟨.ok a, r', ws⟩ := by
  rw [collect_ofEntity hget, addCollectionsOf]
  rcases h.ends howned with ⟨ps, e', ws, ho⟩ | ⟨ho, m, hm⟩
  · rw [ho]
    exact ⟨_, _, _, rfl⟩
  · rw [ho]
    simp only [Outcome.refused]
    rw [Outcome.warn_of_message hm]
    exact ⟨_, _, _, rfl⟩

/-- The second pass over the remaining entities leaves those before them alone. -/
theorem collectAll_eq_ok {q r r' : Registry} {ds es : List Entity} {bs : List TableBinding}
    {ws : List Warning} (h : collectAll c x (es.map .ofEntity) r = ⟨.ok bs, r', ws⟩)
    (hq : q.Sound) (hqr : q.AgreesOnOwners r) (hent : r.entities = ds ++ es.map Entity.freeze)
    (howned : ∀ e ∈ es, ∀ f ∈ x.leadingTo e.name, (q.ofTable? f.table).isSome) :
    ∃ es', List.Forall₂ (fun e e' => Entity.CollectsTo c x q e.freeze e') es es' ∧
      r'.entities = ds ++ es' ∧ q.AgreesOnOwners r' := by
  induction es generalizing r ds bs ws with
  | nil =>
    obtain ⟨_, rfl, _⟩ := Outcome.done_eq_ok.1 h
    exact ⟨[], .nil, by simpa using hent, hqr⟩
  | cons e es ih =>
    simp only [List.map_cons, collectAll, Outcome.andThen_eq_ok, Outcome.map_eq_ok] at h
    obtain ⟨a, r₁, _, us, ha, ⟨bs, hbs, rfl⟩, _⟩ := h
    have howned₁ : ∀ f ∈ x.leadingTo e.name, (r.ofTable? f.table).isSome := fun f hf =>
      hqr.isSome_ofTable? (howned e List.mem_cons_self f hf)
    obtain ⟨e', he', hent₁, hagree⟩ := collect_eq_ok ha (hqr.sound hq) hent howned₁
    have hent₂ : r₁.entities = (ds ++ [e']) ++ es.map Entity.freeze := by simp [hent₁]
    obtain ⟨es', hall, hes', hfin⟩ := ih hbs (hqr.trans hagree) hent₂ fun d hd =>
      howned d (List.mem_cons_of_mem _ hd)
    exact ⟨e' :: es', .cons (he'.congr hqr) hall, by simp [hes'], hfin⟩

/-- The second pass goes through where nothing hinders it over any entity. -/
theorem collectAll_isOk {q r : Registry} {ds es : List Entity} (hq : q.Sound)
    (hqr : q.AgreesOnOwners r) (hent : r.entities = ds ++ es.map Entity.freeze)
    (howned : ∀ e ∈ es, ∀ f ∈ x.leadingTo e.name, (q.ofTable? f.table).isSome)
    (hmay : ∀ e ∈ es, e.freeze.MayCollect c x q) :
    ∃ bs r' ws, collectAll c x (es.map .ofEntity) r = ⟨.ok bs, r', ws⟩ := by
  induction es generalizing r ds with
  | nil => exact ⟨[], r, [], rfl⟩
  | cons e es ih =>
    have hr := hqr.sound hq
    have hmem : e.freeze ∈ r.entities := by simp [hent]
    have hget : r.get? e.name = some e.freeze := hr.get?_name hmem
    have howned₁ : ∀ f ∈ x.leadingTo e.name, (r.ofTable? f.table).isSome := fun f hf =>
      hqr.isSome_ofTable? (howned e List.mem_cons_self f hf)
    obtain ⟨a, r₁, ws, ha⟩ := collect_isOk hget howned₁
      ((Entity.mayCollect_congr hqr).1 (hmay e List.mem_cons_self))
    obtain ⟨e', _, hent₁, hagree⟩ := collect_eq_ok ha hr hent howned₁
    have hent₂ : r₁.entities = (ds ++ [e']) ++ es.map Entity.freeze := by simp [hent₁]
    obtain ⟨bs, r', us, hbs⟩ := ih (hqr.trans hagree) hent₂
      (fun d hd => howned d (List.mem_cons_of_mem _ hd))
      fun d hd => hmay d (List.mem_cons_of_mem _ hd)
    refine ⟨a.2 :: bs, r', ws ++ us, ?_⟩
    rw [List.map_cons, collectAll, ha, Outcome.andThen_ok, hbs]
    rfl

end Registry

/-- The keys of a schema for each of which an entity gets a collection. -/
def Entity.incomingKeys (c : Convention) (s : Settings) (schema : Schema) (e : Entity) :
    List ForeignKey :=
  if e.hasIdentifier then
    wanted c ((schema.foreignKeys.filter fun f => schema.hasTable f.target).filter
      (leadsTo c s e.name))
  else []

/-- The entity of a table at the end of a run: as the first pass completed it, sealed, and with its
collections. -/
structure Derives (c : Convention) (s : Settings) (schema : Schema) (r : Registry) (t : Table)
    (v : Option Property) (ks : List (ForeignKey × Bool)) (refs scs colls : List Property)
    (e : Entity) : Prop where
  completed : ∃ d, Completes c s schema t v ks refs scs d ∧ e = d.freeze.extend colls
  collected : List.Forall₂
    (fun f p => ∃ owner, r.ofTable? f.table = some owner ∧ p.IsCollection c owner f)
    (e.incomingKeys c s schema) colls

def IsDerived (c : Convention) (s : Settings) (schema : Schema) (r : Registry) (t : Table)
    (e : Entity) : Prop :=
  ∃ v ks refs scs colls, Derives c s schema r t v ks refs scs colls e

namespace Derives
variable {r : Registry} {t : Table} {v : Option Property} {ks : List (ForeignKey × Bool)}
  {refs scs colls : List Property} {e : Entity}

theorem table_eq (h : Derives c s schema r t v ks refs scs colls e) : e.table = t := by
  obtain ⟨d, hd, he⟩ := h.completed
  rw [he]
  exact hd.table_eq

theorem name_eq (h : Derives c s schema r t v ks refs scs colls e) :
    entityName c s t.id = .ok e.name := by
  obtain ⟨d, hd, he⟩ := h.completed
  rw [he]
  exact hd.name_eq

theorem properties_eq (h : Derives c s schema r t v ks refs scs colls e) :
    e.properties = v.toList ++ refs ++ scs ++ colls := by
  obtain ⟨d, hd, he⟩ := h.completed
  have hp : e.properties = d.properties ++ colls := by
    rw [he]
    rfl
  rw [hp, hd.properties_eq]

theorem identified (h : Derives c s schema r t v ks refs scs colls e) :
    List.Forall₂ (fun col p => p.IsMadeFrom c (s.normalize t.id) col .scalar true) t.keyColumns
      e.identifier.properties := by
  obtain ⟨d, hd, he⟩ := h.completed
  have hi : e.identifier = d.identifier := by
    rw [he]
    rfl
  rw [hi]
  exact hd.identified

end Derives

theorem IsDerived.table_eq {r : Registry} {t : Table} {e : Entity}
    (h : IsDerived c s schema r t e) : e.table = t := by
  obtain ⟨_, _, _, _, _, h⟩ := h
  exact h.table_eq

theorem IsDerived.name_eq {r : Registry} {t : Table} {e : Entity}
    (h : IsDerived c s schema r t e) : entityName c s t.id = .ok e.name := by
  obtain ⟨_, _, _, _, _, h⟩ := h
  exact h.name_eq

namespace Registry

theorem ofTable?_owner {r : Registry} (hr : r.Sound) {ts : List Table}
    (htables : ts = r.entities.map Entity.table) {t : Table} (ht : t ∈ ts) {f : ForeignKey}
    (hf : f ∈ t.foreignKeys) :
    ∃ e ∈ r.entities, e.table = t ∧ r.ofTable? f.table = some e := by
  rw [htables] at ht
  obtain ⟨e, he, rfl⟩ := List.mem_map.1 ht
  have hown := TableId.same_iff.1 (e.table.foreign_owner f hf)
  exact ⟨e, he, rfl, hr.ofTable?_eq he hown.symm⟩

theorem isSome_ofTable?_of_leadingTo {r : Registry} {x : ReferenceIndex}
    (hx : ReferenceIndex.ofSchema c s schema = .ok x) (hr : r.Sound)
    (htables : schema.tables = r.entities.map Entity.table) (n : Name) :
    ∀ f ∈ x.leadingTo n, (r.ofTable? f.table).isSome := by
  intro f hf
  obtain ⟨t, ht, hft⟩ := Schema.mem_foreignKeys_iff.1 (mem_foreignKeys_of_leadingTo hx hf)
  obtain ⟨e, _, _, he⟩ := ofTable?_owner hr htables ht hft
  rw [he]
  rfl

theorem passes_of_ofSchema {r : Registry} (h : ofSchema c s schema = .ok r) :
    ∃ x bs q ws as us, ReferenceIndex.ofSchema c s schema = .ok x ∧
      bindAll c s schema schema.tables {} = ⟨.ok bs, q, ws⟩ ∧
      collectAll c x bs q = ⟨.ok as, r, us⟩ := by
  generalize ho : derive c s schema = o at h
  rcases o with ⟨_ | as, r', ws⟩
  · simp [ofSchema, ho, Except.map] at h
  obtain rfl : r' = r := by simpa [ofSchema, ho, Except.map] using h
  obtain ⟨x, hx, hd⟩ := Outcome.ask_eq_ok.1 ho
  obtain ⟨bs, q, ws, us, hbind, hcollect, _⟩ := Outcome.andThen_eq_ok.1 hd
  exact ⟨x, bs, q, ws, as, us, hx, hbind, hcollect⟩

/-- The first pass over all tables leaves a sound registry with one entity for each of them. -/
theorem bindAll_tables_eq_ok {bs : List TableBinding} {q : Registry} {ws : List Warning}
    (h : bindAll c s schema schema.tables {} = ⟨.ok bs, q, ws⟩) :
    ∃ es, List.Forall₂ (fun t e => Entity.ofTable c s schema t = .ok e) schema.tables es ∧
      bs = es.map .ofEntity ∧ q.entities = es.map Entity.freeze ∧ q.Sound ∧
      schema.tables = q.entities.map Entity.table := by
  obtain ⟨es, hall, hbs, hent, hq⟩ :=
    bindAll_eq_ok h sound_empty schema.ids_nodup fun _ _ => List.not_mem_nil
  rw [List.nil_append] at hent
  refine ⟨es, hall, hbs, hent, hq, ?_⟩
  rw [hent, List.map_map]
  exact hall.eq_map fun _ _ he => (Entity.isCompleted_of_ofTable he).table_eq.symm

/-- A successful run derives one entity from each table, in the order of the tables. -/
theorem ofSchema_eq_ok {r : Registry} (h : ofSchema c s schema = .ok r) :
    r.Sound ∧ List.Forall₂ (IsDerived c s schema r) schema.tables r.entities := by
  obtain ⟨x, bs, q, _, _, _, hx, hbind, hcollect⟩ := passes_of_ofSchema h
  obtain ⟨ds, hall, rfl, hent, hq, htables⟩ := bindAll_tables_eq_ok hbind
  have howned := isSome_ofTable?_of_leadingTo hx hq htables
  rw [← List.nil_append (ds.map Entity.freeze)] at hent
  obtain ⟨es, hes, hfinal, hagree⟩ := collectAll_eq_ok hcollect hq q.agreesOnOwners_refl
    hent fun e _ => howned e.name
  refine ⟨hagree.sound hq, ?_⟩
  rw [hfinal, List.nil_append]
  refine hall.trans hes fun t d e hd he => ?_
  obtain ⟨v, ks, refs, scs, hd⟩ := Entity.isCompleted_of_ofTable hd
  obtain ⟨colls, rfl, hcolls⟩ := he.parts
  refine ⟨v, ks, refs, scs, colls, ⟨d, hd, rfl⟩, ?_⟩
  have hkeys : Entity.keysFrom c x d.freeze =
      (d.freeze.extend colls).incomingKeys c s schema := by
    rw [Entity.keysFrom, leadingTo_ofSchema hx]
    rfl
  rw [hkeys] at hcolls
  refine hcolls.imp ?_
  rintro f p ⟨owner, ho, hp⟩
  have hrel := hagree.ofTable? f.table
  rw [ho] at hrel
  cases hr : r.ofTable? f.table with
  | none => simp [hr] at hrel
  | some owner' =>
    rw [hr] at hrel
    cases hrel with
    | some hown => exact ⟨owner', rfl, hown.isCollection hp⟩

end Registry
end EntityMapping
