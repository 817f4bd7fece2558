import EntityMapping.Proofs.CollectionExactness
import EntityMapping.Proofs.VersionSelection

/-! # The warnings of a run

Every table warns, in this order, of a primary key that it lacks, of columns that cannot become its
version, and of foreign keys that lead outside the schema. After all tables, those warn that have to
do without the collections that other tables have for them. A run that succeeds issues these
warnings and no other ones.
-/
namespace EntityMapping
open Column

variable {c : Convention} {s : Settings} {schema : Schema} {id : TableId} {t : Table}

/-- The search for a version asks for the type of the column: it is not in the key, and it is meant
for versions. -/
def Table.considers (c : Convention) (id : TableId) (t : Table) (col : Column) : Bool :=
  !col.isAmong t.keyColumns && c.isVersionColumn id col.name = .ok true

def Column.WarnsOfType (c : Convention) (id : TableId) (col : Column) (w : Warning) : Prop :=
  ∃ type, c.logicalType id col false = .ok type ∧ ¬ LogicalType.countsVersions type ∧
    w = .unusableVersion col.name id type

/-- The warnings of a search among some columns for the first that qualifies: one for each column of
another type in front of it. -/
def Table.WarnsInSearch (c : Convention) (id : TableId) (t : Table) (cols : List Column)
    (ws : List Warning) : Prop :=
  ∃ pre post, cols = pre ++ post ∧ (∀ col ∈ pre, ¬ t.Qualifies c id col) ∧
    (∀ col ∈ post.head?, t.Qualifies c id col) ∧
    List.Forall₂ (Column.WarnsOfType c id) (pre.filter (t.considers c id)) ws

/-- The warnings about the version of a table: of the lock column if that is named and cannot be
taken, else of the search. -/
inductive Table.WarnsOfVersion (c : Convention) (id : TableId) (t : Table) : List Warning → Prop
  | missing {name} (named : c.lockColumn id = .ok name) (given : name.truthy)
      (absent : ∀ col ∈ t.columns, ¬ col.name.same name) :
      WarnsOfVersion c id t [.lockColumnMissing name id]
  | claimed {name col} (named : c.lockColumn id = .ok name) (given : name.truthy)
      (found : col ∈ t.columns) (same : col.name.same name) (key : col.isAmong t.keyColumns) :
      WarnsOfVersion c id t [.lockColumnClaimed name id]
  | taken {name col} (named : c.lockColumn id = .ok name) (given : name.truthy)
      (found : col ∈ t.columns) (same : col.name.same name) (free : ¬ col.isAmong t.keyColumns) :
      WarnsOfVersion c id t []
  | searched {name ws} (named : c.lockColumn id = .ok name) (empty : ¬ name.truthy)
      (search : t.WarnsInSearch c id t.columns ws) : WarnsOfVersion c id t ws

def Schema.warnsOutside (schema : Schema) (fs : List ForeignKey) : List Warning :=
  (fs.filter fun f => !schema.hasTable f.target).map .targetOutside

/-- The warnings about a table while it is bound. -/
def Table.Warns (c : Convention) (s : Settings) (schema : Schema) (t : Table)
    (ws : List Warning) : Prop :=
  ∃ n vs, entityName c s t.id = .ok n ∧ t.WarnsOfVersion c (s.normalize t.id) vs ∧
    ws = (if t.primaryKey = none then [.noPrimaryKey t.id n] else []) ++ vs ++
      schema.warnsOutside t.foreignKeys

/-- The warning about a table after all tables are bound: a key refers to it, but it has no primary
key. -/
def Table.WarnsAfterwards (c : Convention) (s : Settings) (schema : Schema) (t : Table)
    (ws : List Warning) : Prop :=
  ∃ n, entityName c s t.id = .ok n ∧
    ws = if t.primaryKey = none ∧ ∃ f ∈ schema.foreignKeys, f.target = t.id then
      [.collectionsSkipped n t.id] else []

theorem Outcome.Keeps.warnings_eq_nil {σ α : Type} {o : Outcome σ α} {P : σ → Prop}
    (h : o.Keeps P fun _ => False) : o.warnings = [] :=
  List.eq_nil_iff_forall_not_mem.2 h.warnings

theorem Outcome.warnings_of_warn_done {σ α : Type} {s t : σ} {a b : α} {w : Warning}
    {ws : List Warning} (h : warn w s (done a s) = ⟨.ok b, t, ws⟩) : ws = [w] := by
  obtain ⟨_, us, hdone, rfl⟩ := warn_eq_ok.1 h
  rw [(done_eq_ok.1 hdone).2.2]

namespace Draft
variable {d d' : Draft} {ws : List Warning}

theorem identify_warnings {i : Identifier} (h : identify c s d = ⟨.ok i, d', ws⟩) :
    ws = if d.entity.table.primaryKey = none then [.noPrimaryKey d.entity.table.id d.entity.name]
      else [] := by
  cases hk : d.entity.table.primaryKey with
  | none =>
    simp only [identify, hk, Outcome.warn_eq_ok] at h
    obtain ⟨_, us, hdone, rfl⟩ := h
    rw [(Outcome.done_eq_ok.1 hdone).2.2, if_pos rfl]
  | some k =>
    obtain ⟨u, ho, _⟩ := identify_of_key hk h
    have hkeeps : (identifierOf c s d.entity k d.claims).Keeps (fun _ => True) fun _ => False :=
      identifierOf_keeps d.entity k d.claims
    rw [ho] at hkeeps
    exact hkeeps.warnings_eq_nil

theorem addVersion_warnings {col : Column} {v : Option Property}
    (h : addVersion c d col = ⟨.ok v, d', ws⟩) : ws = [] := by
  simp only [addVersion, Outcome.ask_eq_ok, Outcome.andThen_eq_ok, Outcome.map_eq_ok,
    append_eq_ok, claim_eq_ok] at h
  obtain ⟨_, _, _, _, _, _, ⟨_, _, _, _, _, _, rfl⟩, ⟨_, ⟨_, _, rfl⟩, _⟩, rfl⟩ := h
  rfl

theorem warnsInSearch_cons {col : Column} {cols : List Column} {us : List Warning}
    (hcol : ¬ t.Qualifies c id col) (hwarns : if t.considers c id col then
      ∃ w, col.WarnsOfType c id w ∧ ws = w :: us else ws = us)
    (h : t.WarnsInSearch c id cols us) : t.WarnsInSearch c id (col :: cols) ws := by
  obtain ⟨pre, post, rfl, hpre, hpost, hall⟩ := h
  refine ⟨col :: pre, post, rfl, List.forall_mem_cons.2 ⟨hcol, hpre⟩, hpost, ?_⟩
  split at hwarns
  · rename_i hasked
    obtain ⟨w, hw, rfl⟩ := hwarns
    rw [List.filter_cons_of_pos hasked]
    exact .cons hw hall
  · rename_i hpassed
    rw [List.filter_cons_of_neg hpassed, hwarns]
    exact hall

theorem searchVersion_warnings {cols : List Column} {v : Option Property}
    (hid : d.entity.tableId = id) (hclaims : d.claims = ⟨t.keyColumns⟩) (hcols : cols ⊆ t.columns)
    (h : searchVersion c d cols = ⟨.ok v, d', ws⟩) : t.WarnsInSearch c id cols ws := by
  subst hid
  induction cols generalizing ws with
  | nil =>
    obtain ⟨_, _, rfl⟩ := Outcome.done_eq_ok.1 h
    exact ⟨[], [], rfl, nofun, nofun, .nil⟩
  | cons col cols ih =>
    obtain ⟨hcol, hrest⟩ := List.cons_subset.1 hcols
    have hkey := Table.has_keyColumns hcol
    unfold searchVersion at h
    dsimp only at h
    rw [hclaims] at h
    split at h
    · rename_i hclaimed
      refine warnsInSearch_cons (fun hq => hq.1 (hkey.1 hclaimed)) ?_ (ih hrest h)
      simp [Table.considers, hkey.1 hclaimed]
    · rename_i hfree
      obtain ⟨isVersion, hasked, h⟩ := Outcome.ask_eq_ok.1 h
      cases isVersion with
      | false =>
        refine warnsInSearch_cons (fun hq => ?_) ?_ (ih hrest h)
        · cases hasked.symm.trans hq.2.1
        · simp [Table.considers, hasked]
      | true =>
        obtain ⟨type, ht, h⟩ := Outcome.ask_eq_ok.1 h
        obtain ⟨given, hgiven, hkeyed⟩ := Answer.bind_eq_ok.1 ht
        obtain ⟨_, rfl⟩ := Document.asKey_eq_ok.1 hkeyed
        split at h
        · rename_i hcounts
          refine ⟨[], col :: cols, rfl, nofun, ?_, addVersion_warnings h ▸ .nil⟩
          rintro _ ⟨⟩
          exact ⟨mt hkey.2 hfree, hasked, _, hgiven, hcounts⟩
        · rename_i hnot
          obtain ⟨_, us, hlater, rfl⟩ := Outcome.warn_eq_ok.1 h
          have hconsidered : t.considers c d.entity.tableId col := by
            simp [Table.considers, hasked, mt hkey.2 hfree]
          refine warnsInSearch_cons ?_ ?_ (ih hrest hlater)
          · rintro ⟨_, _, type', htype', hcounts⟩
            obtain rfl : type = type' := Except.ok.inj (hgiven.symm.trans htype')
            exact hnot hcounts
          · rw [if_pos hconsidered]
            exact ⟨_, ⟨type, hgiven, hnot, rfl⟩, rfl⟩

theorem addVersionOf_warnings {v : Option Property} (htable : d.entity.table = t)
    (hid : d.entity.tableId = id) (hclaims : d.claims = ⟨t.keyColumns⟩)
    (h : addVersionOf c d = ⟨.ok v, d', ws⟩) : t.WarnsOfVersion c id ws := by
  obtain ⟨name, hname, h⟩ := Outcome.ask_eq_ok.1 h
  rw [hid] at hname
  split at h
  · rename_i hgiven
    obtain ⟨o, ho, h⟩ := Outcome.ask_eq_ok.1 h
    rw [htable] at ho
    rw [Table.column_eq_ok ho] at h
    cases hfound : t.column? name with
    | none =>
      rw [hfound] at h
      rw [Outcome.warnings_of_warn_done h, hid]
      exact .missing hname hgiven fun col hcol => by
        simpa using List.find?_eq_none.1 hfound col hcol
    | some col =>
      obtain ⟨hcol, hsame⟩ := mem_of_find? hfound
      have hkey := Table.has_keyColumns hcol
      rw [hfound] at h
      dsimp only at h
      rw [hclaims] at h
      split at h
      · rename_i hclaimed
        rw [Outcome.warnings_of_warn_done h, hid]
        exact .claimed hname hgiven hcol hsame (hkey.1 hclaimed)
      · rename_i hfree
        rw [addVersion_warnings h]
        exact .taken hname hgiven hcol hsame (mt hkey.2 hfree)
  · rename_i hempty
    rw [htable] at h
    exact .searched hname hempty (searchVersion_warnings hid hclaims (List.Subset.refl _) h)

theorem addReferences_warnings {fs : List ForeignKey} {ps : List Property}
    (h : addReferences c s schema fs d = ⟨.ok ps, d', ws⟩) : ws = schema.warnsOutside fs := by
  induction fs generalizing d ps ws with
  | nil =>
    obtain ⟨_, _, rfl⟩ := Outcome.done_eq_ok.1 h
    rfl
  | cons f fs ih =>
    rw [addReferences] at h
    split at h
    · rename_i hin
      have hrest : schema.warnsOutside (f :: fs) = schema.warnsOutside fs := by
        simp [Schema.warnsOutside, hin]
      rw [hrest]
      obtain ⟨tr, _, h⟩ := Outcome.ask_eq_ok.1 h
      cases tr with
      | skipped => exact ih h
      | claimed => exact ih h
      | bound m =>
        simp only [Outcome.andThen_eq_ok, Outcome.map_eq_ok, addReference_eq_ok] at h
        obtain ⟨_, _, _, _, ⟨_, _, _, rfl⟩, ⟨_, hrest, _⟩, rfl⟩ := h
        exact ih hrest
    · rename_i hout
      obtain ⟨_, us, hlater, rfl⟩ := Outcome.warn_eq_ok.1 h
      rw [ih hlater]
      simp [Schema.warnsOutside, hout]

theorem complete_warnings {b : Entity} (hb : Entity.blank c s t = .ok b)
    (h : complete c s schema ⟨b, {}⟩ = ⟨.ok (), d, ws⟩) : t.Warns c s schema ws := by
  obtain ⟨refs, d₃, _, us, h₁₃, h₄, rfl⟩ := Outcome.andThen_eq_ok.1 h
  obtain ⟨v, d₂, _, _, h₁₂, h₃, rfl⟩ := Outcome.andThen_eq_ok.1 h₁₃
  obtain ⟨i, d₁, _, vs, h₁, h₂, rfl⟩ := Outcome.andThen_eq_ok.1 h₁₂
  obtain ⟨scs, hscalars, _⟩ := Outcome.map_eq_ok.1 h₄
  obtain ⟨htable, hid, hname, _, _, _⟩ := Entity.blank_eq_ok hb
  obtain ⟨o, hv⟩ := isVersioned_of_eq_ok hb h₁₂
  obtain ⟨_, hasked⟩ := hv.asked
  have hd₁ : d₁ = ⟨{ b with identifier := d₂.entity.identifier }, ⟨t.keyColumns⟩⟩ := by
    cases h₁.symm.trans hasked
    rfl
  have hversion : t.WarnsOfVersion c (s.normalize t.id) vs :=
    addVersionOf_warnings (by rw [hd₁]; exact htable) (by rw [hd₁]; exact hid) (by rw [hd₁]) h₂
  have hdistinct : d₃.entity.HasDistinctNames := by
    have hkeeps := @referenced_keeps c s schema t b hb
    rw [h₁₃] at hkeeps
    exact hkeeps.state
  have hsilent := (addScalars_keeps (c := c) (Q := fun _ => False) hdistinct
    d₃.entity.table.columns []).warnings_eq_nil
  rw [← addScalarsOf, hscalars] at hsilent
  obtain rfl : us = [] := hsilent
  refine ⟨b.name, vs, hname, hversion, ?_⟩
  rw [addReferencesOf, hv.table_eq hb] at h₃
  rw [identify_warnings h₁, addReferences_warnings h₃, htable, List.append_nil]

end Draft

namespace Registry
variable {x : ReferenceIndex} {ws : List Warning}

theorem bind_warnings {r r' : Registry} {b : TableBinding}
    (h : r.bind c s schema t = ⟨.ok b, r', ws⟩) : t.Warns c s schema ws := by
  rw [bind_eq] at h
  obtain ⟨blank, hblank, h⟩ := Outcome.ask_eq_ok.1 h
  dsimp only at h
  generalize ho : Draft.complete c s schema ⟨blank, {}⟩ = o at h
  rcases o with ⟨_ | _, d, us⟩
  · cases h
  · simp only at h
    cases he : r.enter d.entity with
    | error refusal => simp [he] at h
    | ok r₁ =>
      rw [he] at h
      cases h
      exact Draft.complete_warnings hblank ho

theorem bindAll_warnings {ts : List Table} {r r' : Registry} {bs : List TableBinding}
    (h : bindAll c s schema ts r = ⟨.ok bs, r', ws⟩) :
    ∃ wss, List.Forall₂ (Table.Warns c s schema) ts wss ∧ ws = wss.flatten := by
  induction ts generalizing r bs ws with
  | nil =>
    obtain ⟨_, _, rfl⟩ := Outcome.done_eq_ok.1 h
    exact ⟨[], .nil, rfl⟩
  | cons t ts ih =>
    simp only [bindAll, Outcome.andThen_eq_ok, Outcome.map_eq_ok] at h
    obtain ⟨b, r₁, vs, us, hb, ⟨bs, hbs, rfl⟩, rfl⟩ := h
    obtain ⟨wss, hall, rfl⟩ := ih hbs
    exact ⟨vs :: wss, .cons (bind_warnings hb) hall, rfl⟩

end Registry

namespace Entity
variable {x : ReferenceIndex} {r : Registry} {e e' : Entity} {ws : List Warning}

def warnsOfCollections (x : ReferenceIndex) (e : Entity) : List Warning :=
  if ¬ e.hasIdentifier ∧ x.leadingTo e.name ≠ [] then [.collectionsSkipped e.name e.table.id]
  else []

theorem collect_warnings {ps : List Property} (h : e.collect c x r = ⟨.ok ps, e', ws⟩)
    (howned : ∀ f ∈ x.leadingTo e.name, (r.ofTable? f.table).isSome) :
    ws = e.warnsOfCollections x := by
  by_cases hp : e.name.isPlain
  · by_cases hid : e.hasIdentifier
    · rw [collect_of_hasIdentifier hp hid, addCollections_eq_ok howned] at h
      obtain ⟨_, _, _, _, _, _, rfl⟩ := h
      rw [warnsOfCollections, if_neg (not_and.2 fun hno => absurd hid hno)]
    · rw [collect_of_not_hasIdentifier hp hid] at h
      split at h
      · rename_i hnil
        obtain ⟨_, _, rfl⟩ := Outcome.done_eq_ok.1 h
        rw [warnsOfCollections, if_neg (not_and.2 fun _ => not_not.2 hnil)]
      · exact absurd h Outcome.refused_ne_ok
  · rw [collect_of_not_plain hp] at h
    exact absurd h Outcome.refused_ne_ok

theorem warnsOfCollections_of_noIdentifier {n : Name} {id : TableId}
    (h : (e.collect c x r).answer = .error (.noIdentifier n id)) :
    e.warnsOfCollections x = [.collectionsSkipped n id] := by
  by_cases hp : e.name.isPlain
  · by_cases hid : e.hasIdentifier
    · rw [collect_of_hasIdentifier hp hid] at h
      obtain ⟨_, hfault⟩ := answer_addCollections_eq_error h
      cases hfault
    · rw [collect_of_not_hasIdentifier hp hid] at h
      split at h
      · cases h
      · rename_i hne
        cases h
        rw [warnsOfCollections, if_pos ⟨hid, hne⟩]
  · rw [collect_of_not_plain hp] at h
    cases h

end Entity

namespace Registry
variable {x : ReferenceIndex} {q r r' : Registry} {ds es : List Entity} {ws : List Warning}

theorem collect_warnings {e : Entity} {a : List Property × TableBinding}
    (h : r.collect c x (.ofEntity e) = ⟨.ok a, r', ws⟩) (hget : r.get? e.name = some e.freeze)
    (howned : ∀ f ∈ x.leadingTo e.name, (r.ofTable? f.table).isSome) :
    ws = e.warnsOfCollections x := by
  rw [collect_ofEntity hget, Outcome.map_eq_ok] at h
  obtain ⟨ps, h, _⟩ := h
  unfold addCollectionsOf at h
  generalize ho : e.freeze.collect c x r = o at h
  rcases o with ⟨refusal | ps, e', us⟩
  · cases refusal with
    | noIdentifier n id =>
      rw [Outcome.warnings_of_warn_done h]
      exact (Entity.warnsOfCollections_of_noIdentifier (congrArg Outcome.answer ho)).symm
    | _ => cases h
  · cases h
    have hsilent : us = e.freeze.warnsOfCollections x := Entity.collect_warnings ho howned
    exact hsilent

theorem collectAll_warnings {bs : List TableBinding}
    (h : collectAll c x (es.map .ofEntity) r = ⟨.ok bs, r', ws⟩) (hq : q.Sound)
    (hqr : q.AgreesOnOwners r) (hent : r.entities = ds ++ es.map Entity.freeze)
    (howned : ∀ e ∈ es, ∀ f ∈ x.leadingTo e.name, (q.ofTable? f.table).isSome) :
    ws = es.flatMap (Entity.warnsOfCollections x) := by
  -- The registry stays sound and knows the same owners, so that every step finds its own entity.
  induction es generalizing r ds bs ws with
  | nil =>
    obtain ⟨_, _, rfl⟩ := Outcome.done_eq_ok.1 h
    rfl
  | cons e es ih =>
    simp only [List.map_cons, collectAll, Outcome.andThen_eq_ok, Outcome.map_eq_ok] at h
    obtain ⟨a, r₁, vs, us, ha, ⟨bs, hbs, rfl⟩, rfl⟩ := h
    have howned₁ : ∀ f ∈ x.leadingTo e.name, (r.ofTable? f.table).isSome := fun f hf =>
      hqr.isSome_ofTable? (howned e List.mem_cons_self f hf)
    have hmem : e.freeze ∈ r.entities := by simp [hent]
    have hget : r.get? e.name = some e.freeze := (hqr.sound hq).get?_name hmem
    obtain ⟨e', _, hent₁, hagree⟩ := collect_eq_ok ha (hqr.sound hq) hent howned₁
    have hent₂ : r₁.entities = (ds ++ [e']) ++ es.map Entity.freeze := by simp [hent₁]
    rw [collect_warnings ha hget howned₁, List.flatMap_cons, ih hbs (hqr.trans hagree) hent₂
      fun d hd => howned d (List.mem_cons_of_mem _ hd)]

theorem leadingTo_ne_nil_iff (h : ofSchema c s schema = .ok r) (hs : schema.IsTyped)
    (hx : ReferenceIndex.ofSchema c s schema = .ok x) {e : Entity} (he : e ∈ r.entities) :
    x.leadingTo e.name ≠ [] ↔ ∃ f ∈ schema.foreignKeys, f.target = e.table.id := by
  rw [leadingTo_ofSchema hx, List.filter_filter, ne_eq, List.filter_eq_nil_iff]
  push Not
  refine exists_congr fun f => and_congr_right fun _ => ?_
  rw [← leadsTo_iff_target_eq h hs he, Bool.and_eq_true, and_comm]

/-- The warnings of a run that succeeds: those of every table, then those that come afterwards, both
in the order of the tables. -/
theorem warnings_exact (h : ofSchema c s schema = .ok r) :
    ∃ wss uss, (derive c s schema).warnings = wss.flatten ++ uss.flatten ∧
      List.Forall₂ (Table.Warns c s schema) schema.tables wss ∧
      (schema.IsTyped → List.Forall₂ (Table.WarnsAfterwards c s schema) schema.tables uss) := by
  obtain ⟨x, bs, q, ws, as, us, hx, hbind, hcollect⟩ := passes_of_ofSchema h
  obtain ⟨wss, hwss, rfl⟩ := bindAll_warnings hbind
  obtain ⟨ds, hds, rfl, hent, hq, htables⟩ := bindAll_tables_eq_ok hbind
  have howned := isSome_ofTable?_of_leadingTo hx hq htables
  rw [← List.nil_append (ds.map Entity.freeze)] at hent
  have hus := collectAll_warnings hcollect hq q.agreesOnOwners_refl hent fun e _ => howned e.name
  obtain ⟨es, hes, hfinal, _⟩ := collectAll_eq_ok hcollect hq q.agreesOnOwners_refl hent
    fun e _ => howned e.name
  refine ⟨wss, ds.map (Entity.warnsOfCollections x), ?_, hwss, fun hs => ?_⟩
  · rw [derive, hx, Outcome.ask_ok, hbind, Outcome.andThen_ok, hcollect, ← List.flatMap_def, ← hus]
    rfl
  · refine List.forall₂_map_right_iff.2 (hds.imp_of_mem fun t _ d hd hmade => ?_)
    obtain ⟨v, ks, refs, scs, hcompletes⟩ := Entity.isCompleted_of_ofTable hmade
    obtain ⟨e, he, hcollects⟩ := hes.exists_right hd
    have hname : d.name = e.name := hcollects.agreesAsOwner.name_eq
    have htable : t = e.table := hcompletes.table_eq.symm.trans hcollects.agreesAsOwner.table_eq
    have hkey : ¬ d.hasIdentifier ↔ t.primaryKey = none := by
      rw [← hcompletes.kind_iff]
      simp [Entity.hasIdentifier]
    have hrefers : x.leadingTo d.name ≠ [] ↔ ∃ f ∈ schema.foreignKeys, f.target = t.id := by
      rw [hname, htable]
      exact leadingTo_ne_nil_iff h hs hx (by rw [hfinal]; exact he)
    refine ⟨d.name, hcompletes.name_eq, ?_⟩
    simp only [Entity.warnsOfCollections, hkey, hrefers, hcompletes.table_eq]

end Registry

def ForeignKey.ofColumn (table target : Name) (column : Column) : ForeignKey where
  table := { name := table }
  target := { name := target }
  columns := [column]
  columns_ne := by simp
  paired := .inl rfl

/-- A table without primary key, and with a key that leads outside. -/
def Table.journals : Table where
  id := { name := "journals" }
  columns := [{ name := "title" }, { name := "author" }]
  primaryKey := none
  foreignKeys := [.ofColumn "journals" "people" { name := "author" }]
  comment := .null
  names_plain := by decide
  names_nodup := by decide
  key_columns := by decide
  foreign_owner := by decide
  foreign_columns := by decide

def Table.entries : Table where
  id := { name := "entries" }
  columns := [{ name := "revision" }, { name := "journal" }]
  primaryKey := some { columns := [{ name := "revision" }], columns_ne := by simp }
  foreignKeys := [.ofColumn "entries" "journals" { name := "journal" }]
  comment := .null
  names_plain := by decide
  names_nodup := by decide
  key_columns := by decide
  foreign_owner := by decide
  foreign_columns := by decide

def Schema.journals : Schema where
  tables := [.journals, .entries, .revisions]
  ids_plain := by decide
  ids_nodup := by decide
  targets_plain := by decide
  targets_known := by decide

def Convention.countingAlone : Convention :=
  { counting with skipsCollection := fun _ => .ok true }

/-- Each table warns of the version in a way of its own, and the one without primary key in all
other ways. -/
theorem Registry.warnings_exact_journals : ∃ r, ofSchema .countingAlone {} .journals = .ok r ∧
    (derive .countingAlone {} .journals).warnings =
      [.noPrimaryKey { name := "journals" } "journals",
        .lockColumnMissing "revision" { name := "journals" },
        .targetOutside (.ofColumn "journals" "people" { name := "author" }),
        .lockColumnClaimed "revision" { name := "entries" },
        .unusableVersion "label" { name := "revisions" } "varchar",
        .collectionsSkipped "journals" { name := "journals" }] ∧
    ∃ wss uss, (derive .countingAlone {} .journals).warnings = wss.flatten ++ uss.flatten ∧
      List.Forall₂ (Table.Warns .countingAlone {} .journals) Schema.journals.tables wss ∧
      List.Forall₂ (Table.WarnsAfterwards .countingAlone {} .journals) Schema.journals.tables
        uss := by
  have hrun : (ofSchema .countingAlone {} .journals).toOption.any fun _ => true := by decide
  obtain ⟨r, h, _⟩ := exists_ok_of_toOption_any hrun
  obtain ⟨wss, uss, hlog, hwss, huss⟩ := warnings_exact h
  exact ⟨r, h, by decide, wss, uss, hlog, hwss, huss (by decide)⟩

end EntityMapping
