import EntityMapping.Proofs.Derivation.NameClash
import EntityMapping.Proofs.Derivation.TwoPasses
import EntityMapping.Proofs.ReferenceCoverage

/-! # What becomes of each foreign key

The keys of a table are looked at one after the other beside the columns that have a place by then.
A key within the schema that is not left out is bound if one of its columns has no place yet, or
anyway when basic composites are preferred; the columns of a bound key have a place from then on.
-/
namespace EntityMapping
open Column

variable {c : Convention} {s : Settings} {schema : Schema}

/-- Whether a key is bound when some columns have a place. -/
def ForeignKey.IsBoundBeside (c : Convention) (s : Settings) (schema : Schema)
    (placed : List Column) (f : ForeignKey) : Prop :=
  schema.hasTable f.target ∧ c.skipsReference f = .ok false ∧
    ((∃ col ∈ f.columns, ¬ col.isAmong placed) ∨ s.basicComposites)

/-- The reference along a key of a table. It can be changed unless all columns of the key have a
place, and it has the name that the convention has for it, or a numbered one if that is taken. -/
structure Property.IsReferenceBeside (c : Convention) (s : Settings) (t : Table)
    (placed : List Column) (taken : List Name) (f : ForeignKey) (p : Property) : Prop where
  reference : p.IsReference c s f (∃ col ∈ f.columns, ¬ col.isAmong placed)
  named : ∃ base, c.referenceName f (t.refersOnce f) = .ok base ∧
    Naming.IsLeastFree taken base p.name

/-- The references that are made along some keys of a table, when some columns have a place and some
names are taken before. -/
inductive Table.Decides (c : Convention) (s : Settings) (schema : Schema) (t : Table) :
    List Column → List Name → List ForeignKey → List Property → Prop
  | nil {placed taken} : Decides c s schema t placed taken [] []
  | bound {placed taken f fs p ps} (hf : f.IsBoundBeside c s schema placed)
      (hp : p.IsReferenceBeside c s t placed taken f)
      (rest : Decides c s schema t (placed ++ f.columns) (taken ++ [p.name]) fs ps) :
      Decides c s schema t placed taken (f :: fs) (p :: ps)
  | passed {placed taken f fs ps} (hf : ¬ f.IsBoundBeside c s schema placed)
      (rest : Decides c s schema t placed taken fs ps) :
      Decides c s schema t placed taken (f :: fs) ps

theorem Table.Decides.kind_eq {t : Table} {placed : List Column} {taken : List Name}
    {fs : List ForeignKey} {ps : List Property} (h : t.Decides c s schema placed taken fs ps) :
    ∀ p ∈ ps, p.kind = .reference := by
  induction h with
  | nil => exact nofun
  | bound _ hp _ ih => exact List.forall_mem_cons.2 ⟨hp.reference.kind_eq, ih⟩
  | passed _ _ ih => exact ih

theorem treatment_decides {claims : Claims} {f : ForeignKey} {placed : List Column}
    {tr : Treatment} (hin : schema.hasTable f.target)
    (hall : claims.hasAll f.columns ↔ ∀ col ∈ f.columns, col.isAmong placed)
    (h : treatment c s claims f = .ok tr) :
    f.IsBoundBeside c s schema placed ∧
        tr = .bound (∃ col ∈ f.columns, ¬ col.isAmong placed) ∨
      ¬ f.IsBoundBeside c s schema placed ∧ (tr = .skipped ∨ tr = .claimed) := by
  obtain ⟨skips, hskips, rfl⟩ := treatment_eq_ok.1 h
  have hfree : (∃ col ∈ f.columns, ¬ col.isAmong placed) ↔ claims.hasAll f.columns = false := by
    rw [← Bool.not_eq_true, hall]
    simp only [not_forall, exists_prop]
  have hmutable : decide (∃ col ∈ f.columns, ¬ col.isAmong placed) = !claims.hasAll f.columns := by
    rw [Bool.eq_iff_iff, decide_eq_true_iff, hfree, Bool.not_eq_true']
  rw [hmutable, ForeignKey.IsBoundBeside, hskips, hfree]
  cases skips <;> cases claims.hasAll f.columns <;> cases s.basicComposites <;> simp [hin]

namespace Draft

def Places (d : Draft) (placed : List Column) : Prop :=
  ∀ col, col.isAmong d.entity.table.columns → (d.claims.has col ↔ col.isAmong placed)

theorem places_columns {d : Draft}
    (h : ∀ col ∈ d.claims.columns, col.isAmong d.entity.table.columns) :
    d.Places d.claims.columns :=
  fun _ hcol => Claims.has_iff.trans (Table.isAmong_iff_name h hcol).symm

theorem Places.hasAll_iff {d : Draft} {placed : List Column} (h : d.Places placed) {f : ForeignKey}
    (hf : f ∈ d.entity.table.foreignKeys) :
    d.claims.hasAll f.columns ↔ ∀ col ∈ f.columns, col.isAmong placed := by
  rw [Claims.hasAll, List.all_eq_true]
  exact forall₂_congr fun col hcol => h col (Table.isAmong_of_mem_foreignKey hf hcol)

theorem Places.insertAll {d d' : Draft} {placed : List Column} (h : d.Places placed)
    {f : ForeignKey} (hf : f ∈ d.entity.table.foreignKeys)
    (htable : d'.entity.table = d.entity.table)
    (hclaims : d'.claims = d.claims.insertAll f.columns) : d'.Places (placed ++ f.columns) := by
  intro col hcol
  rw [htable] at hcol
  have hown : ∀ col' ∈ f.columns, col'.isAmong d.entity.table.columns :=
    fun _ hcol' => Table.isAmong_of_mem_foreignKey hf hcol'
  rw [hclaims, Claims.has_iff, Claims.mem_nameKeys_insertAll, ← Claims.has_iff, h col hcol,
    ← Table.isAmong_iff_name hown hcol, isAmong_append]
  exact or_comm

theorem addReference_cases {d : Draft} (hopen : d.entity.isSealed = false) (f : ForeignKey)
    (m : Bool) :
    (∃ p base, p.IsReference c s f m ∧
      c.referenceName f (d.entity.table.refersOnce f) = .ok base ∧
      Naming.IsLeastFree d.entity.names base p.name ∧ addReference c s d f m =
        .done p ⟨d.entity.extend [p], d.claims.insertAll f.columns⟩) ∨
      ∃ fault, addReference c s d f m = .refused (.unanswered fault) d := by
  cases h : referenceProperty c s d.entity f m with
  | error fault => exact .inr ⟨fault, by rw [addReference, h]; rfl⟩
  | ok p =>
    obtain ⟨q, hq, _, _, hp⟩ := referenceProperty_eq_ok.1 h
    have hname : p.name = Naming.fresh d.entity.names q.name := by rw [hp, Property.named_name]
    have hadd : d.entity.add p = .ok (d.entity.extend [p]) :=
      Entity.add_eq_ok.2 ⟨fun hs => absurd hs (by simp [hopen]),
        hname ▸ Naming.isTaken_fresh _ _, rfl⟩
    refine .inl ⟨p, q.name, ?_, ?_, hname ▸ Naming.fresh_isLeastFree _ _, ?_⟩
    · rw [hp]
      exact (isReference_of_sketch hq).named _
    · simp only [referenceSketch, Answer.bind_eq_ok, Answer.pure_eq_ok] at hq
      obtain ⟨_, hbase, _, _, rfl⟩ := hq
      exact hbase
    · rw [addReference, h, Outcome.ask_ok, hadd]

/-- The first key is bound, or passed, or a question about it is not answered. -/
theorem addReferences_cons_cases (c : Convention) (s : Settings) (schema : Schema) {d : Draft}
    {placed : List Column} {f : ForeignKey} (hplaces : d.Places placed)
    (hopen : d.entity.isSealed = false) (hf : f ∈ d.entity.table.foreignKeys)
    (fs : List ForeignKey) :
    (f.IsBoundBeside c s schema placed ∧ ∃ p d₁,
      p.IsReferenceBeside c s d.entity.table placed d.entity.names f ∧
      d₁.entity = d.entity.extend [p] ∧ d₁.Places (placed ++ f.columns) ∧
      addReferences c s schema (f :: fs) d = (addReferences c s schema fs d₁).map (p :: ·)) ∨
    (¬ f.IsBoundBeside c s schema placed ∧ ∃ ws,
      addReferences c s schema (f :: fs) d = (addReferences c s schema fs d).after ws) ∨
    ∃ fault, addReferences c s schema (f :: fs) d = .refused (.unanswered fault) d := by
  rw [addReferences]
  split
  · rename_i hin
    cases htr : treatment c s d.claims f with
    | error fault => exact .inr (.inr ⟨fault, rfl⟩)
    | ok tr =>
      rw [Outcome.ask_ok]
      rcases treatment_decides hin (hplaces.hasAll_iff hf) htr with
        ⟨hbound, rfl⟩ | ⟨hnot, rfl | rfl⟩
      · rcases addReference_cases hopen f _ with ⟨p, base, hp, hbase, hname, hadd⟩ | ⟨fault, hadd⟩
        · refine .inl ⟨hbound, p, ⟨d.entity.extend [p], d.claims.insertAll f.columns⟩,
            ⟨hp, base, hbase, hname⟩, rfl, hplaces.insertAll hf rfl rfl, ?_⟩
          dsimp only
          rw [hadd]
          rfl
        · refine .inr (.inr ⟨fault, ?_⟩)
          dsimp only
          rw [hadd]
          rfl
      · exact .inr (.inl ⟨hnot, [], rfl⟩)
      · exact .inr (.inl ⟨hnot, [], rfl⟩)
  · rename_i hout
    have hnot : ¬ f.IsBoundBeside c s schema placed := fun h => hout h.1
    cases hm : (Warning.targetOutside f).message with
    | error fault => exact .inr (.inr ⟨fault, by rw [Outcome.warn, hm]; rfl⟩)
    | ok m => exact .inr (.inl ⟨hnot, _, Outcome.warn_of_message hm⟩)

/-- How far a walk over some keys comes: over all of them, or up to one about which a question is
not answered. The references along the keys that are done stay. -/
structure WalksTo (c : Convention) (s : Settings) (schema : Schema) (d : Draft)
    (placed : List Column) (fs done rest : List ForeignKey) (ps : List Property) : Prop where
  keys_eq : fs = done ++ rest
  decided : d.entity.table.Decides c s schema placed d.entity.names done ps
  grown : (addReferences c s schema fs d).state.entity = d.entity.extend ps
  ends : rest = [] ∧ (addReferences c s schema fs d).answer = .ok ps ∨
    rest ≠ [] ∧ ∃ fault, (addReferences c s schema fs d).answer = .error (.unanswered fault)

theorem exists_walksTo {d : Draft} {placed : List Column} {fs : List ForeignKey}
    (hplaces : d.Places placed) (hopen : d.entity.isSealed = false)
    (hfs : ∀ f ∈ fs, f ∈ d.entity.table.foreignKeys) :
    ∃ done rest ps, d.WalksTo c s schema placed fs done rest ps := by
  -- The claims keep to the places along the walk; both grow only when a key is bound.
  induction fs generalizing d placed with
  | nil => exact ⟨[], [], [], rfl, .nil, by simp [addReferences, Outcome.done], .inl ⟨rfl, rfl⟩⟩
  | cons f fs ih =>
    obtain ⟨hf, hfs⟩ := List.forall_mem_cons.1 hfs
    rcases addReferences_cons_cases c s schema hplaces hopen hf fs with
      ⟨hbound, p, d₁, hp, he, hplaces₁, heq⟩ | ⟨hnot, ws, heq⟩ | ⟨fault, heq⟩
    · obtain ⟨done, rest, ps, rfl, hdecides, hstate, hanswer⟩ :=
        ih hplaces₁ (by rw [he]; exact hopen) (by rw [he]; exact hfs)
      rw [he, Entity.names_extend] at hdecides
      refine ⟨f :: done, rest, p :: ps, rfl, .bound hbound hp hdecides, ?_, ?_⟩
      · rw [heq]
        exact hstate.trans (by rw [he, Entity.extend_extend]; rfl)
      · rw [heq]
        rcases hanswer with ⟨hnil, hok⟩ | ⟨hne, fault, herr⟩
        · exact .inl ⟨hnil, by rw [Outcome.map, hok]; rfl⟩
        · exact .inr ⟨hne, fault, Outcome.answer_map_eq_error.2 herr⟩
    · obtain ⟨done, rest, ps, rfl, hdecides, hgrown, hends⟩ := ih hplaces hopen hfs
      exact ⟨f :: done, rest, ps, rfl, .passed hnot hdecides, by rwa [heq], by rwa [heq]⟩
    · exact ⟨[], f :: fs, [], rfl, .nil, by rw [heq]; simp [Outcome.refused],
        .inr ⟨List.cons_ne_nil _ _, fault, by rw [heq]; rfl⟩⟩

namespace IsVersioned
variable {t : Table} {b : Entity} {o : Option Column} {v : Option Property} {d : Draft}

theorem places (h : IsVersioned c s t b o v d) (hb : Entity.blank c s t = .ok b) :
    d.Places (startingClaims t v).columns := by
  rw [← h.claimed]
  apply places_columns
  rw [h.claimed, startingClaims, h.table_eq hb]
  intro col hcol
  rcases List.mem_append.1 hcol with hcol | hcol
  · exact Table.isAmong_of_mem_keyColumns hcol
  · obtain ⟨p, hp, hcol⟩ := List.mem_flatMap.1 hcol
    obtain ⟨col', hcol', hm⟩ := h.versioned p (Option.mem_toList.1 hp)
    rw [hm.columns_eq, List.mem_singleton] at hcol
    exact hcol ▸ isAmong_of_mem hcol'

theorem isSealed_eq (h : IsVersioned c s t b o v d) (hb : Entity.blank c s t = .ok b) :
    d.entity.isSealed = false := by
  rw [h.grown]
  exact (Entity.blank_eq_ok hb).2.2.2.2.2

theorem exists_walksTo (h : IsVersioned c s t b o v d) (hb : Entity.blank c s t = .ok b)
    (schema : Schema) : ∃ done rest ps,
      d.WalksTo c s schema (startingClaims t v).columns t.foreignKeys done rest ps := by
  refine Draft.exists_walksTo (h.places hb) (h.isSealed_eq hb) fun f hf => ?_
  rwa [h.table_eq hb]

end IsVersioned

theorem isReady_of_eq_ok (hc : c.IsTotal) {t : Table} (ht : t.IsTyped) {b : Entity} {d : Draft}
    {v : Option Property} {ws : List Warning} (hb : Entity.blank c s t = .ok b)
    (h : ((identify c s ⟨b, {}⟩).andThen fun _ d => d.addVersionOf c) = ⟨.ok v, d, ws⟩) :
    d.entity.IsReady := by
  obtain ⟨i, d₁, _, _, hidentified, hversioned, _⟩ := Outcome.andThen_eq_ok.1 h
  obtain ⟨_, _, _, hok, hd⟩ := addVersionOf_reaches hc (identify_isReady hc ht hb hidentified)
  cases hversioned.symm.trans hok
  exact hd

/-- Nothing stops the walk under a total convention. -/
theorem WalksTo.rest_eq {d : Draft} {placed : List Column} {fs done rest : List ForeignKey}
    {ps : List Property} (h : d.WalksTo c s schema placed fs done rest ps) (hc : c.IsTotal)
    (hd : d.entity.IsReady) (hfs : ∀ f ∈ fs, f.IsTyped) : rest = [] := by
  rcases h.ends with ⟨hnil, _⟩ | ⟨_, fault, herr⟩
  · exact hnil
  · have hreaches : (addReferences c s schema fs d).Reaches fun _ d' => d'.entity.IsReady :=
      addReferences_reaches hc hd hfs
    obtain ⟨_, _, _, hok, _⟩ := hreaches
    rw [hok] at herr
    cases herr

theorem WalksTo.of_eq_ok {d d' : Draft} {placed : List Column} {fs done rest : List ForeignKey}
    {ps refs : List Property} {ws : List Warning} (h : d.WalksTo c s schema placed fs done rest ps)
    (heq : addReferences c s schema fs d = ⟨.ok refs, d', ws⟩) :
    d.entity.table.Decides c s schema placed d.entity.names fs refs ∧
      d'.entity = d.entity.extend refs := by
  obtain ⟨hkeys, hdecided, hgrown, hends⟩ := h
  rw [heq] at hgrown hends
  rcases hends with ⟨rfl, hok⟩ | ⟨_, _, herr⟩
  · obtain rfl : refs = ps := Except.ok.inj hok
    rw [List.append_nil] at hkeys
    exact ⟨hkeys ▸ hdecided, hgrown⟩
  · cases herr

end Draft

namespace Entity

def namesBefore (e : Entity) : List Name := { e with properties := e.version.toList }.names

/-- The references of an entity are those that are decided on for its table. -/
def HasDecided (c : Convention) (s : Settings) (schema : Schema) (e : Entity) : Prop :=
  e.table.Decides c s schema (e.table.keyColumns ++ e.version.toList.flatMap Property.columns)
    e.namesBefore e.table.foreignKeys e.references

theorem references_of_parts {e : Entity} {vs refs scs : List Property}
    (he : e.properties = vs ++ refs ++ scs) (hv : ∀ p ∈ vs, p.kind = .version)
    (hr : ∀ p ∈ refs, p.kind = .reference) (hs : ∀ p ∈ scs, p.kind = .scalar) :
    e.references = refs := by
  rw [references, ofKinds, he]
  simp only [List.filter_append, filter_kind hv, filter_kind hr, filter_kind hs]
  simp

theorem hasDecided_of_ofTable {t : Table} {e : Entity} (h : Entity.ofTable c s schema t = .ok e) :
    e.HasDecided c s schema := by
  obtain ⟨b, d, ws, hb, hcomplete, rfl⟩ := ofTable_eq_ok.1 h
  obtain ⟨v, d₂, _, refs, d₃, _, scs, _, h₁₂, h₃, h₄⟩ := Draft.complete_steps hcomplete
  obtain ⟨o, hv⟩ := Draft.isVersioned_of_eq_ok hb h₁₂
  have htable := hv.table_eq hb
  rw [Draft.addReferencesOf, htable] at h₃
  obtain ⟨_, _, _, hwalk⟩ := hv.exists_walksTo hb schema
  obtain ⟨hdecides, he₃⟩ := hwalk.of_eq_ok h₃
  obtain ⟨hscs, he₄⟩ := Draft.addScalars_eq_ok d₃.entity.table.nameKeys_nodup h₄
  have he : d.entity = { d₂.entity with properties := v.toList ++ refs ++ scs } := by
    rw [he₄, he₃, hv.grown]
    rfl
  have hreferences : d.entity.references = refs := by
    refine references_of_parts (by rw [he]) (fun p hp => ?_) hdecides.kind_eq fun p hp => ?_
    · obtain ⟨_, _, hm⟩ := hv.versioned p (Option.mem_toList.1 hp)
      exact hm.kind_eq
    · obtain ⟨_, _, hm⟩ := hscs.exists_left hp
      exact hm.kind_eq
  have hversion : d.entity.version = v := by rw [he, hv.grown]
  have hnames : d.entity.namesBefore = d₂.entity.names := by
    rw [namesBefore, hversion, he, hv.grown]
  have htable' : d.entity.table = t := by rw [he]; exact htable
  rw [htable] at hdecides
  rw [HasDecided, hreferences, hversion, hnames, htable']
  exact hdecides

end Entity

namespace Registry

theorem hasDecided_of_ofSchema {r : Registry} (h : ofSchema c s schema = .ok r) {e : Entity}
    (he : e ∈ r.entities) : e.HasDecided c s schema := by
  obtain ⟨x, ds, q, hfirst, _, hes⟩ := FirstPass.of_ofSchema h
  obtain ⟨d, hd, hcollects⟩ := hes.exists_left he
  obtain ⟨t, _, hmade⟩ := hfirst.made.exists_left hd
  have hreferences : d.references = e.references := hcollects.agreesAsOwner.references_eq
  have hdecided := Entity.hasDecided_of_ofTable hmade
  obtain ⟨ps, rfl, _⟩ := hcollects.parts
  rwa [Entity.HasDecided, hreferences] at hdecided

/-- Which keys are bound, and how, for every table that gets its identifier and its version: whether
binding the references succeeds or not, and for every entity of a run that succeeds. -/
theorem decides_references (c : Convention) (s : Settings) (schema : Schema) :
    (∀ t b v d ws, Entity.blank c s t = .ok b →
      ((Draft.identify c s ⟨b, {}⟩).andThen fun _ d => d.addVersionOf c) = ⟨.ok v, d, ws⟩ →
      d.entity.table = t ∧ ∃ done rest ps,
        d.WalksTo c s schema (t.keyColumns ++ v.toList.flatMap Property.columns) t.foreignKeys
          done rest ps ∧ (c.IsTotal → t.IsTyped → rest = [])) ∧
    ∀ r, ofSchema c s schema = .ok r → ∀ e ∈ r.entities, e.HasDecided c s schema := by
  refine ⟨fun t b v d ws hb hd => ?_, fun r h e he => hasDecided_of_ofSchema h he⟩
  obtain ⟨o, hv⟩ := Draft.isVersioned_of_eq_ok hb hd
  obtain ⟨done, rest, ps, hwalk⟩ := hv.exists_walksTo hb schema
  refine ⟨hv.table_eq hb, done, rest, ps, hwalk, fun hc ht => ?_⟩
  exact hwalk.rest_eq hc (Draft.isReady_of_eq_ok hc ht hb hd) ht.2.2.2

end Registry

def ForeignKey.ofBorder (target name : Name) (columns : List Column) (h : columns ≠ []) :
    ForeignKey where
  table := { name := "borders" }
  target := { name := target }
  columns
  name
  columns_ne := h
  paired := .inl rfl

/-- Keys over columns that are free, that are claimed in part or as a whole, a key that leads
outside, one that is left out, and a second one over the columns of another. -/
def Table.borders : Table where
  id := { name := "borders" }
  columns := [{ name := "id" }, { name := "here" }, { name := "there" }, { name := "area" }]
  primaryKey := some .ofId
  foreignKeys := [
    .ofBorder "countries" .null [{ name := "here" }] (by simp),
    .ofBorder "countries" "pair" [{ name := "here" }, { name := "there" }] (by simp),
    .ofBorder "countries" "again" [{ name := "here" }] (by simp),
    .ofBorder "regions" .null [{ name := "there" }] (by simp),
    .ofBorder "seas" .null [{ name := "area" }] (by simp),
    .ofBorder "regions" "unused" [{ name := "area" }] (by simp)]
  comment := .null
  names_plain := by decide
  names_nodup := by decide
  key_columns := by decide
  foreign_owner := by decide
  foreign_columns := by decide

def Schema.frontier : Schema where
  tables := [.countries, .regions, .borders]
  ids_plain := by decide
  ids_nodup := by decide
  targets_plain := by decide
  targets_known := by decide

def Convention.selective : Convention :=
  { plain with skipsReference := fun f => .ok (f.name.same "unused") }

theorem Convention.selective_isTotal : selective.IsTotal :=
  { plain_isTotal with skipsReference := fun _ _ => ⟨_, rfl, trivial⟩ }

namespace Registry

/-- Binding the references of the table goes through, and so does the run. Four keys are bound, of
which the last two cannot be changed, and the third gives way to the name of the first. -/
theorem decides_references_frontier :
    (∃ b v d ws ps, Entity.blank .selective { basicComposites := true } .borders = .ok b ∧
      ((Draft.identify .selective { basicComposites := true } ⟨b, {}⟩).andThen fun _ d =>
        d.addVersionOf .selective) = ⟨.ok v, d, ws⟩ ∧
      d.WalksTo .selective { basicComposites := true } .frontier
        (Table.borders.keyColumns ++ v.toList.flatMap Property.columns) Table.borders.foreignKeys
        Table.borders.foreignKeys [] ps) ∧
    ∃ r, ofSchema .selective { basicComposites := true } .frontier = .ok r ∧
      ((r.entities.flatMap Entity.references).map fun p => (p.name, p.mutable)) =
        [(.text "countriesByHere", .bool true), (.text "countriesByPair", .bool true),
          (.text "countriesByHere_1", .bool false), (.text "regionsByThere", .bool false)] ∧
      ∀ e ∈ r.entities, e.HasDecided .selective { basicComposites := true } .frontier := by
  obtain ⟨hstep, hdecided⟩ := decides_references .selective { basicComposites := true } .frontier
  constructor
  · have hversioned : (Entity.blank .selective { basicComposites := true }
        .borders).toOption.any fun b =>
          ((Draft.identify .selective { basicComposites := true } ⟨b, {}⟩).andThen fun _ d =>
            d.addVersionOf .selective).answer.toOption.any fun _ => true := by decide
    obtain ⟨b, hb, hany⟩ := exists_ok_of_toOption_any hversioned
    generalize ho : ((Draft.identify .selective { basicComposites := true } ⟨b, {}⟩).andThen
      fun _ d => d.addVersionOf .selective) = o at hany
    rcases o with ⟨answer, d, ws⟩
    obtain ⟨v, rfl, _⟩ := exists_ok_of_toOption_any hany
    obtain ⟨_, done, rest, ps, hwalk, hrest⟩ := hstep .borders b v d ws hb ho
    obtain rfl : rest = [] := hrest Convention.selective_isTotal (by decide)
    obtain rfl : Table.borders.foreignKeys = done := by simpa using hwalk.keys_eq
    exact ⟨b, v, d, ws, ps, hb, ho, hwalk⟩
  · have hrun : (ofSchema .selective { basicComposites := true } .frontier).toOption.any fun r =>
        ((r.entities.flatMap Entity.references).map fun p => (p.name, p.mutable)) =
          [(.text "countriesByHere", .bool true), (.text "countriesByPair", .bool true),
            (.text "countriesByHere_1", .bool false), (.text "regionsByThere", .bool false)] := by
      decide
    obtain ⟨r, h, hreferences⟩ := exists_ok_of_toOption_any hrun
    exact ⟨r, h, of_decide_eq_true hreferences, hdecided r h⟩

end Registry
end EntityMapping
