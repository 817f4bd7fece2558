import EntityMapping.Proofs.Derivation.Layout
import EntityMapping.Proofs.Derivation.Outline
import EntityMapping.Proofs.Entity.Normalized
import EntityMapping.Proofs.FirstFailure

/-! # Runs over a normalized schema

Entities are named after normal forms, so that nothing but the keys changes when a schema is
normalized before it is derived. Under a convention that decides alike about a key and its normal
form, the two runs succeed for the same schemas, and their entities resemble each other up to the
names of the associations, which the convention gives to the keys.
-/
namespace EntityMapping
open Column

variable {c : Convention} {s : Settings} {schema : Schema} {t : Table}

/-- Whether a key is left out and what its collection is like does not depend on whether the key is
normalized. -/
structure Convention.DecidesAlike (c : Convention) (s : Settings) : Prop where
  skipsReference : ∀ f, c.skipsReference (f.normalized s) = c.skipsReference f
  skipsCollection : ∀ f, c.skipsCollection (f.normalized s) = c.skipsCollection f
  isInverse : ∀ f, c.isInverse (f.normalized s) = c.isInverse f
  isLazy : ∀ f, c.isLazy (f.normalized s) = c.isLazy f

/-- The associations along the keys of the table have the same names from the convention when the
keys are normalized. -/
def Table.KeepsNames (c : Convention) (s : Settings) (t : Table) : Prop :=
  ∀ f ∈ t.foreignKeys,
    c.referenceName (f.normalized s) (t.refersOnce f) = c.referenceName f (t.refersOnce f) ∧
    c.collectionName (f.normalized s) (t.refersOnce f) = c.collectionName f (t.refersOnce f)

def Schema.KeepsNames (c : Convention) (s : Settings) (schema : Schema) : Prop :=
  ∀ t ∈ schema.tables, t.KeepsNames c s

theorem entityName_normalize (id : TableId) :
    entityName c s (s.normalize id) = entityName c s id := by
  rw [entityName, entityName, s.normalize_normalize]

theorem boundKeys_normalized (hd : c.DecidesAlike s) (h : s.Separates schema)
    {fs : List ForeignKey} (hfs : ∀ f ∈ fs, f ∈ schema.foreignKeys) (claims : Claims) :
    boundKeys c s (schema.normalized s h) claims (fs.map (ForeignKey.normalized s)) =
      (boundKeys c s schema claims fs).map (List.map fun k => (k.1.normalized s, k.2)) := by
  induction fs generalizing claims with
  | nil => rfl
  | cons f fs ih =>
    obtain ⟨hf, hfs⟩ := List.forall_mem_cons.1 hfs
    have htreated : treatment c s claims (f.normalized s) = treatment c s claims f := by
      rw [treatment, treatment, hd.skipsReference, ForeignKey.normalized_columns]
    rw [List.map_cons, boundKeys, boundKeys, ForeignKey.normalized_target,
      Schema.hasTable_normalized hf, htreated, ForeignKey.normalized_columns]
    simp only [ih hfs]
    split
    · rcases treatment c s claims f with _ | _ | _ | m
      · rfl
      · rfl
      · rfl
      · simp only [bind, Except.bind]
        cases boundKeys c s schema (claims.insertAll f.columns) fs <;> rfl
    · rfl

@[simp] theorem keyedColumns_normalized (ks : List (ForeignKey × Bool)) :
    keyedColumns (ks.map fun k => (k.1.normalized s, k.2)) = keyedColumns ks := by
  simp only [keyedColumns, List.flatMap_map, ForeignKey.normalized_columns]

namespace Draft

theorem versionColumn_normalized (claims : Claims) :
    versionColumn c (t.normalized s) (s.normalize (s.normalize t.id)) claims =
      versionColumn c t (s.normalize t.id) claims := by
  rw [s.normalize_normalize]
  rfl

section
variable {e e' : Entity} {claims u : Claims} {ws : List Warning}

-- The identifier step reads of an entity its table identifier and the primary key, and the rest
-- only when it is refused.
theorem keyProperties_congr (hid : e'.tableId = e.tableId) {cols : List Column}
    {done : Named Column} {ps : List Property}
    (h : keyProperties c e cols done claims = ⟨.ok ps, u, ws⟩) :
    keyProperties c e' cols done claims = ⟨.ok ps, u, ws⟩ := by
  induction cols generalizing done claims ps with
  | nil => exact h
  | cons col cols ih =>
    obtain ⟨p, v, qs, hname, hplain, hnew, hmade, hclaim, hrest, rfl⟩ :=
      keyProperties_cons_eq_ok.1 h
    refine keyProperties_cons_eq_ok.2
      ⟨p, v, qs, ?_, hplain, hnew, ?_, hclaim, ih hrest, rfl⟩
    · rwa [hid]
    · rwa [hid]

theorem identifierOf_congr (hid : e'.tableId = e.tableId) {k : PrimaryKey} {i : Identifier}
    (h : identifierOf c s e k claims = ⟨.ok i, u, ws⟩) :
    identifierOf c s e' k claims = ⟨.ok i, u, ws⟩ := by
  unfold identifierOf at h ⊢
  split at h
  · simp only [simpleIdentifier, Outcome.ask_eq_ok, Outcome.andThen_eq_ok, claimKey_eq_ok,
      hid] at h ⊢
    exact h
  · have hcomposite : ∀ ps, compositeIdentifier c s e' ps = compositeIdentifier c s e ps := by
      intro ps
      rw [compositeIdentifier, compositeIdentifier, hid]
    simp only [Outcome.andThen_eq_ok, Outcome.ask_eq_ok, hcomposite] at h ⊢
    obtain ⟨ps, v, vs, us, hps, hrest⟩ := h
    exact ⟨ps, v, vs, us, keyProperties_congr hid hps, hrest⟩

theorem identify_congr {i i' : Identifier} {d d' : Draft} {ws' : List Warning}
    (h : identify c s ⟨e, {}⟩ = ⟨.ok i, d, ws⟩) (h' : identify c s ⟨e', {}⟩ = ⟨.ok i', d', ws'⟩)
    (hid : e'.tableId = e.tableId) (hkey : e'.table.primaryKey = e.table.primaryKey) : i' = i := by
  cases hk : e.table.primaryKey with
  | none =>
    simp only [identify, hkey, hk, Outcome.warn_eq_ok] at h h'
    obtain ⟨_, us, h, _⟩ := h
    obtain ⟨_, us', h', _⟩ := h'
    rw [← (Outcome.done_eq_ok.1 h).1, ← (Outcome.done_eq_ok.1 h').1]
  | some k =>
    obtain ⟨_, ho, _⟩ := identify_of_key hk h
    obtain ⟨_, ho', _⟩ := identify_of_key (hkey.trans hk) h'
    rw [identifierOf_congr hid ho] at ho'
    cases ho'
    rfl

end

end Draft

theorem Table.unclaimed_normalized (hd : c.DecidesAlike s) (h : s.Separates schema)
    (ht : t ∈ schema.tables) : (t.normalized s).unclaimed c s (schema.normalized s h) =
      t.unclaimed c s schema := by
  rw [unclaimed, unclaimed, normalized_id, Draft.versionColumn_normalized, normalized_keyColumns]
  refine bind_congr fun version => ?_
  dsimp only
  rw [normalized_foreignKeys, boundKeys_normalized hd h fun f hf =>
    Schema.mem_foreignKeys_iff.2 ⟨t, ht, hf⟩]
  rcases boundKeys c s schema ⟨t.keyColumns ++ version.toList⟩ t.foreignKeys with _ | ks
  · rfl
  · exact congrArg (fun cols => Except.ok (Draft.freeColumns (Claims.insertAll _ cols) t.columns))
      (keyedColumns_normalized ks)

theorem Table.isClear_normalized (hd : c.DecidesAlike s) (h : s.Separates schema)
    (ht : t ∈ schema.tables) : (t.normalized s).IsClear c s (schema.normalized s h) ↔
      t.IsClear c s schema := by
  rw [isClear_iff, isClear_iff, unclaimed_normalized hd h ht, normalized_id,
    s.normalize_normalize, normalized_keyColumns]

theorem Registry.ofSchema_isOk_normalized (hc : c.IsTotal) (hd : c.DecidesAlike s)
    (hs : schema.IsTyped) (h : s.Separates schema) :
    (∃ r, ofSchema c s (schema.normalized s h) = .ok r) ↔ ∃ r, ofSchema c s schema = .ok r := by
  rw [ofSchema_isOk_iff hc hs.normalized, ofSchema_isOk_iff hc hs, Schema.normalized_tables,
    List.forall_mem_map, List.map_map]
  have hnames : schema.tables.map ((fun t => entityName c s t.id) ∘ Table.normalized s) =
      schema.tables.map fun t => entityName c s t.id :=
    List.map_congr_left fun t _ => entityName_normalize t.id
  rw [hnames]
  exact and_congr_left fun _ => forall₂_congr fun t ht => Table.isClear_normalized hd h ht

theorem Property.IsSketchOf.unique {id : TableId} {role : Role} {col : Column} {p q : Property}
    (hp : IsSketchOf c id role col p) (hq : IsSketchOf c id role col q) : p = q := by
  have hname : p.name = q.name := Except.ok.inj (hp.1.symm.trans hq.1)
  have hmade : columnProperty c id q.name col role false = .ok p := hname ▸ hp.2
  exact Except.ok.inj (hmade.symm.trans hq.2)

/-- The sketches of columns are the same in both runs, and have no keys that could be normalized. -/
theorem Property.sketches_unique {id : TableId} {role : Role} {cols : List Column}
    {ps qs : List Property} (hp : List.Forall₂ (IsSketchOf c id role) cols ps)
    (hq : List.Forall₂ (IsSketchOf c id role) cols qs) : ps = qs := by
  have hunique : Relator.RightUnique (IsSketchOf c id role) := fun _ _ _ => IsSketchOf.unique
  exact List.right_unique_forall₂' hunique hp hq

theorem Property.sketches_resemble {id : TableId} {role : Role} {cols : List Column}
    {ps : List Property} {named : Prop} (hrole : role.association? = none)
    (h : List.Forall₂ (IsSketchOf c id role) cols ps) :
    List.Forall₂ (Resembles s named) ps ps := by
  refine List.forall₂_same.2 fun p hp => ?_
  obtain ⟨col, _, _, hmade⟩ := h.exists_left hp
  apply resembles_self
  rw [foreignKey?, (columnProperty_parts hmade).2.2.1, hrole]
  rfl

theorem Entity.blank_normalized : Entity.blank c s (t.normalized s) =
    (fun b => { b with table := t.normalized s }) <$> Entity.blank c s t := by
  simp only [blank, Table.normalized_id, s.normalize_normalize, map_bind, map_pure]

section
variable {named : Prop} {f : ForeignKey} {q q' : Property}

theorem referenceSketch_resembles (h : s.Separates schema) (ht : t ∈ schema.tables)
    (hf : f ∈ t.foreignKeys) (hn : named → t.KeepsNames c s) {m : Bool}
    (hq : referenceSketch c s t f m = .ok q)
    (hq' : referenceSketch c s (t.normalized s) (f.normalized s) m = .ok q') :
    q.Resembles s named q' := by
  simp only [referenceSketch, Answer.bind_eq_ok, Answer.pure_eq_ok] at hq hq'
  obtain ⟨n, hname, target, htarget, rfl⟩ := hq
  obtain ⟨n', hname', target', htarget', rfl⟩ := hq'
  rw [ForeignKey.normalized_target, entityName_normalize] at htarget'
  obtain rfl : target = target' := Except.ok.inj (htarget.symm.trans htarget')
  refine ⟨rfl, fun hnamed => ?_⟩
  rw [h.refersOnce ht hf, (hn hnamed f hf).1] at hname'
  obtain rfl : n = n' := Except.ok.inj (hname.symm.trans hname')
  rfl

/-- The collections along a key and along the normalized key resemble each other when the owners
do. -/
theorem collectionSketch_resembles (hd : c.DecidesAlike s) (h : s.Separates schema)
    {owner owner' : Entity} (ho : owner.Resembles s named owner')
    (ht : owner.table ∈ schema.tables) (hf : f ∈ owner.table.foreignKeys)
    (hkeys : ∀ p ∈ owner.references, ∀ g ∈ p.foreignKey?, g ∈ schema.foreignKeys)
    (hn : named → owner.table.KeepsNames c s) (hq : collectionSketch c owner f = .ok q)
    (hq' : collectionSketch c owner' (f.normalized s) = .ok q') : q.Resembles s named q' := by
  simp only [collectionSketch, Answer.bind_eq_ok, Answer.pure_eq_ok] at hq hq'
  obtain ⟨n, hname, isInverse, hi, isLazy, hl, rfl⟩ := hq
  obtain ⟨n', hname', isInverse', hi', isLazy', hl', rfl⟩ := hq'
  rw [hd.isInverse] at hi'
  rw [hd.isLazy] at hl'
  obtain rfl : isInverse = isInverse' := Except.ok.inj (hi.symm.trans hi')
  obtain rfl : isLazy = isLazy' := Except.ok.inj (hl.symm.trans hl')
  rw [ho.name_eq]
  refine ⟨rfl, fun hnamed => ?_⟩
  rw [ho.table_eq, h.refersOnce ht hf, (hn hnamed f hf).2] at hname'
  obtain rfl : n = n' := Except.ok.inj (hname.symm.trans hname')
  have hfs : f ∈ schema.foreignKeys := Schema.mem_foreignKeys_iff.2 ⟨_, ht, hf⟩
  rw [ho.eq hnamed, Entity.referenceFor?_normalized h hfs hkeys, Option.map_map]
  rfl

end

section
variable {o o' : Outline}

/-- The outline of a normalized table is the outline of the table but for the keys and the
references along them. -/
theorem Outline.IsOf.eq_normalized (hd : c.DecidesAlike s) (h : s.Separates schema)
    (ht : t ∈ schema.tables) (ho : o.IsOf c s schema t)
    (ho' : o'.IsOf c s (schema.normalized s h) (t.normalized s)) :
    o' = { o with
      blank := { o.blank with table := t.normalized s }
      keys := o.keys.map fun k => (k.1.normalized s, k.2)
      references := o'.references } := by
  rcases o with ⟨b, i, col, ks, vs, rs, ss⟩
  rcases o' with ⟨b', i', col', ks', vs', rs', ss'⟩
  obtain ⟨hb, ⟨ws, hi⟩, hcol, hvs, hks, _, hss⟩ := ho
  obtain ⟨hb', ⟨ws', hi'⟩, hcol', hvs', hks', _, hss'⟩ := ho'
  dsimp only at hb hi hcol hvs hks hss hb' hi' hcol' hvs' hks' hss'
  -- Everything in front of the references is answered from normal forms, and so it is the same.
  rw [Entity.blank_normalized, hb] at hb'
  obtain rfl : { b with table := t.normalized s } = b' := Except.ok.inj hb'
  have htable : b.table = t := (Entity.blank_eq_ok hb).1
  obtain rfl : i' = i := Draft.identify_congr hi hi' rfl (congrArg Table.primaryKey htable).symm
  rw [Table.normalized_id, Draft.versionColumn_normalized, Table.normalized_keyColumns,
    hcol] at hcol'
  obtain rfl : col = col' := Except.ok.inj hcol'
  rw [Table.normalized_id, s.normalize_normalize] at hvs' hss'
  obtain rfl : vs = vs' := Property.sketches_unique hvs hvs'
  simp only [claims, Table.normalized_keyColumns, Table.normalized_foreignKeys,
    Table.normalized_columns] at hks hks' hss hss'
  rw [boundKeys_normalized hd h (fun f hf => Schema.mem_foreignKeys_iff.2 ⟨t, ht, hf⟩),
    hks] at hks'
  obtain rfl : ks.map (fun k => (k.1.normalized s, k.2)) = ks' := Except.ok.inj hks'
  -- The normalized keys claim the same columns, which leaves the same columns for the scalars.
  rw [keyedColumns_normalized] at hss'
  obtain rfl : ss = ss' := Property.sketches_unique hss hss'
  rfl

variable {named : Prop}

theorem Outline.IsOf.references_resemble (h : s.Separates schema) (ht : t ∈ schema.tables)
    (hn : named → t.KeepsNames c s) (ho : o.IsOf c s schema t)
    (ho' : o'.IsOf c s (schema.normalized s h) (t.normalized s))
    (hkeys : o'.keys = o.keys.map fun k => (k.1.normalized s, k.2)) :
    List.Forall₂ (Property.Resembles s named) o.references o'.references := by
  have hown : ∀ k ∈ o.keys, k.1 ∈ t.foreignKeys := fun k hk =>
    (boundKeys_sublist ho.planned).subset (List.mem_map_of_mem hk)
  have hrefs := ((List.forall₂_and_left _ _).2 ⟨hown, ho.referenced⟩).flip
  have hrefs' := ho'.referenced
  rw [hkeys, List.forall₂_map_left_iff] at hrefs'
  refine hrefs.trans hrefs' ?_
  rintro q k q' ⟨hk, hq⟩ hq'
  exact referenceSketch_resembles h ht hk hn hq hq'

theorem Outline.IsOf.resembles (hd : c.DecidesAlike s) (h : s.Separates schema)
    (ht : t ∈ schema.tables) (hn : named → t.KeepsNames c s) (ho : o.IsOf c s schema t)
    (ho' : o'.IsOf c s (schema.normalized s h) (t.normalized s)) :
    o.entity.Resembles s named o'.entity := by
  have heq := ho.eq_normalized hd h ht ho'
  have hrefs := ho.references_resemble h ht hn ho' (congrArg Outline.keys heq)
  have htable : o.blank.table = t := (Entity.blank_eq_ok ho.blank_eq).1
  generalize o'.references = rs at heq hrefs
  subst heq
  have hsketches : List.Forall₂ (Property.Resembles s named)
      (o.version ++ o.references ++ o.scalars) (o.version ++ rs ++ o.scalars) :=
    List.rel_append (List.rel_append (Property.sketches_resemble rfl ho.versioned) hrefs)
      (Property.sketches_resemble rfl ho.scaled)
  refine ⟨?_, Property.nameInOrder_resembles hsketches fun _ => rfl⟩
  simp only [entity, start, htable]
  rfl

end

theorem Entity.ofTable_resembles {e e' : Entity} {named : Prop} (hd : c.DecidesAlike s)
    (h : s.Separates schema) (ht : t ∈ schema.tables) (hn : named → t.KeepsNames c s)
    (he : Entity.ofTable c s schema t = .ok e)
    (he' : Entity.ofTable c s (schema.normalized s h) (t.normalized s) = .ok e') :
    e.Resembles s named e' := by
  obtain ⟨o, ho, rfl⟩ := exists_outline he
  obtain ⟨o', ho', rfl⟩ := exists_outline he'
  exact ho.resembles hd h ht hn ho'

theorem leadsTo_normalized (n : Name) (f : ForeignKey) :
    leadsTo c s n (f.normalized s) = leadsTo c s n f := by
  rw [leadsTo, leadsTo, ForeignKey.normalized_target, entityName_normalize]

theorem leadingTo_normalized {x x' : ReferenceIndex} (h : s.Separates schema)
    (hx : ReferenceIndex.ofSchema c s schema = .ok x)
    (hx' : ReferenceIndex.ofSchema c s (schema.normalized s h) = .ok x') (n : Name) :
    x'.leadingTo n = (x.leadingTo n).map (ForeignKey.normalized s) := by
  have hin : schema.foreignKeys.filter
      ((fun f => (schema.normalized s h).hasTable f.target) ∘ ForeignKey.normalized s) =
      schema.foreignKeys.filter fun f => schema.hasTable f.target :=
    List.filter_congr fun f hf => Schema.hasTable_normalized hf
  have hlead : leadsTo c s n ∘ ForeignKey.normalized s = leadsTo c s n :=
    funext fun f => leadsTo_normalized n f
  rw [leadingTo_ofSchema hx, leadingTo_ofSchema hx', Schema.normalized_foreignKeys,
    List.filter_map, hin, List.filter_map, hlead]

namespace Entity

theorem keysFrom_normalized {x x' : ReferenceIndex} {e e' : Entity} {named : Prop}
    (hd : c.DecidesAlike s) (he : e.Resembles s named e')
    (hx : ∀ n, x'.leadingTo n = (x.leadingTo n).map (ForeignKey.normalized s)) :
    keysFrom c x' e' = (keysFrom c x e).map (ForeignKey.normalized s) := by
  rw [keysFrom, keysFrom, he.hasIdentifier_eq, he.name_eq]
  split
  · rw [wanted, wanted, hx, List.filter_map]
    congr 1
    exact List.filter_congr fun f _ => by rw [Function.comp, hd.skipsCollection]
  · rfl

end Entity

namespace FirstPass
variable {x x' : ReferenceIndex} {ds ds' : List Entity} {q q' : Registry} {h : s.Separates schema}
  {named : Prop}

theorem resembles (hd : c.DecidesAlike s) (hn : named → schema.KeepsNames c s)
    (hfirst : FirstPass c s schema x ds q)
    (hfirst' : FirstPass c s (schema.normalized s h) x' ds' q') :
    List.Forall₂ (Entity.Resembles s named) ds ds' := by
  have hmade := ((List.forall₂_and_left _ _).2 ⟨fun _ ht => ht, hfirst.made⟩).flip
  refine hmade.trans (List.forall₂_map_left_iff.1 hfirst'.made) ?_
  rintro d t d' ⟨ht, hd₁⟩ hd₁'
  exact Entity.ofTable_resembles hd h ht (fun hnamed => hn hnamed t ht) hd₁ hd₁'

theorem isSketched_resembles (hd : c.DecidesAlike s) (hn : named → schema.KeepsNames c s)
    (hfirst : FirstPass c s schema x ds q)
    (hfirst' : FirstPass c s (schema.normalized s h) x' ds' q')
    (hds : List.Forall₂ (Entity.Resembles s named) ds ds') {f : ForeignKey}
    (hf : f ∈ schema.foreignKeys) {p p' : Property} (hp : Entity.IsSketched c q f p)
    (hp' : Entity.IsSketched c q' (f.normalized s) p') : p.Resembles s named p' := by
  obtain ⟨d, hdmem, hfd⟩ := hfirst.exists_owner hf
  obtain ⟨d', hdmem', hres⟩ := hds.exists_right hdmem
  obtain ⟨t, ht, hmade⟩ := hfirst.made.exists_left hdmem
  have hcompleted := Entity.isCompleted_of_ofTable hmade
  have hfd' : f.normalized s ∈ d'.table.foreignKeys := by
    rw [hres.table_eq]
    exact List.mem_map_of_mem hfd
  obtain ⟨owner, ho, hsketch⟩ := hp
  obtain ⟨owner', ho', hsketch'⟩ := hp'
  rw [hfirst.ofTable?_eq hdmem hfd] at ho
  rw [hfirst'.ofTable?_eq hdmem' hfd'] at ho'
  obtain rfl : d.freeze = owner := Option.some.inj ho
  obtain rfl : d'.freeze = owner' := Option.some.inj ho'
  have htable : d.table ∈ schema.tables := hcompleted.table_eq.symm ▸ ht
  have hkeys : ∀ p ∈ d.references, ∀ g ∈ p.foreignKey?, g ∈ schema.foreignKeys :=
    fun p hp g hg => Schema.mem_foreignKeys_iff.2 ⟨t, ht, hcompleted.key_mem p hp g hg⟩
  exact collectionSketch_resembles hd h hres.freeze htable hfd hkeys
    (fun hnamed => hn hnamed _ htable) hsketch hsketch'

theorem collectsTo_resembles (hd : c.DecidesAlike s) (hn : named → schema.KeepsNames c s)
    (hfirst : FirstPass c s schema x ds q)
    (hfirst' : FirstPass c s (schema.normalized s h) x' ds' q')
    (hds : List.Forall₂ (Entity.Resembles s named) ds ds') {d d' e e' : Entity}
    (hres : d.Resembles s named d') (he : Entity.CollectsTo c x q d e)
    (he' : Entity.CollectsTo c x' q' d' e') : e.Resembles s named e' := by
  obtain ⟨qs, hqs, rfl⟩ := he.grown
  obtain ⟨qs', hqs', rfl⟩ := he'.grown
  rw [Entity.keysFrom_normalized hd hres (leadingTo_normalized h hfirst.indexed hfirst'.indexed),
    List.forall₂_map_left_iff] at hqs'
  have hkeys : ∀ f ∈ Entity.keysFrom c x d, f ∈ schema.foreignKeys := fun f hf =>
    mem_foreignKeys_of_leadingTo hfirst.indexed
      (List.mem_filter.1 (Entity.mem_keysFrom_iff.1 hf).2).1
  have hsketches : List.Forall₂ (Property.Resembles s named) qs qs' := by
    have hown := ((List.forall₂_and_left _ _).2 ⟨hkeys, hqs⟩).flip
    refine hown.trans hqs' ?_
    rintro p f p' ⟨hf, hp⟩ hp'
    exact isSketched_resembles hd hn hfirst hfirst' hds hf hp hp'
  refine ⟨?_, List.rel_append hres.properties
    (Property.nameInOrder_resembles hsketches hres.names_eq)⟩
  rw [hres.frame_eq]
  rfl

end FirstPass

/-- The entities of the two runs resemble each other, in all names if the convention has the same
names for the associations along normalized keys. -/
theorem Registry.ofSchema_resembles {r r' : Registry} {h : s.Separates schema}
    (hd : c.DecidesAlike s) (hr : ofSchema c s schema = .ok r)
    (hr' : ofSchema c s (schema.normalized s h) = .ok r') :
    List.Forall₂ (Entity.Resembles s (schema.KeepsNames c s)) r.entities r'.entities := by
  obtain ⟨x, ds, q, hfirst, _, hes⟩ := FirstPass.of_ofSchema hr
  obtain ⟨x', ds', q', hfirst', _, hes'⟩ := FirstPass.of_ofSchema hr'
  have hds := hfirst.resembles hd id hfirst'
  have hboth := hes.flip.trans hds fun e d d' he hres =>
    (⟨d, he, hres⟩ : ∃ d, Entity.CollectsTo c x q d.freeze e ∧
      d.Resembles s (schema.KeepsNames c s) d')
  refine hboth.trans hes' ?_
  rintro e d' e' ⟨d, he, hres⟩ he'
  exact hfirst.collectsTo_resembles hd id hfirst' hds hres.freeze he he'

end EntityMapping
