import EntityMapping.Derivation.Run
import EntityMapping.Proofs.Derivation.Reference
import EntityMapping.Proofs.Derivation.Stages
import EntityMapping.Proofs.Entity.Registry

/-! # What the first pass makes of a table

An entity that the first pass completes consists of its identifier, at most one version, the
references and the scalars, each described by the table alone. A successful pass over several
tables completes one entity for each of them and enters it.
-/
namespace EntityMapping
open Column

variable {c : Convention} {s : Settings} {schema : Schema} {t : Table}

theorem Entity.blank_eq_ok {b : Entity} (h : Entity.blank c s t = .ok b) :
    b.table = t ∧ b.tableId = s.normalize t.id ∧ entityName c s t.id = .ok b.name ∧
      b.properties = [] ∧ b.version = none ∧ b.isSealed = false := by
  simp only [blank, Answer.bind_eq_ok, Answer.pure_eq_ok] at h
  obtain ⟨name, hname, _, _, _, _, _, _, rfl⟩ := h
  exact ⟨rfl, rfl, hname, rfl, rfl, rfl⟩

/-- The columns that are claimed before the references are looked at. -/
def startingClaims (t : Table) (v : Option Property) : Claims :=
  ⟨t.keyColumns ++ v.toList.flatMap Property.columns⟩

/-- The entity of a table as the first pass completes it, with its version, the keys that are
bound, and its references and scalars. -/
structure Completes (c : Convention) (s : Settings) (schema : Schema) (t : Table)
    (v : Option Property) (ks : List (ForeignKey × Bool)) (refs scs : List Property)
    (e : Entity) : Prop where
  grown : ∃ b, Entity.blank c s t = .ok b ∧ e =
    { b with identifier := e.identifier, properties := v.toList ++ refs ++ scs, version := v }
  kind_iff : e.identifier.kind = .none ↔ t.primaryKey = none
  identified : List.Forall₂ (fun col p => p.IsMadeFrom c (s.normalize t.id) col .scalar true)
    t.keyColumns e.identifier.properties
  claims_nodup : (nameKeys (startingClaims t v).columns).Nodup
  versioned : ∀ p ∈ v, ∃ col ∈ t.columns, p.IsMadeFrom c (s.normalize t.id) col .version false
  planned : boundKeys c s schema (startingClaims t v) t.foreignKeys = .ok ks
  referenced : List.Forall₂ (fun k p => p.IsReference c s k.1 k.2) ks refs
  references_nodup : (refs.map fun p => p.name.key).Nodup
  scaled : List.Forall₂ (fun col p => p.IsMadeFrom c (s.normalize t.id) col .scalar false)
    (Draft.freeColumns ((startingClaims t v).insertAll (keyedColumns ks)) t.columns) scs

namespace Completes
variable {v : Option Property} {ks : List (ForeignKey × Bool)} {refs scs : List Property}
  {e : Entity}

theorem table_eq (h : Completes c s schema t v ks refs scs e) : e.table = t := by
  obtain ⟨b, hb, he⟩ := h.grown
  rw [he]
  exact (Entity.blank_eq_ok hb).1

theorem tableId_eq (h : Completes c s schema t v ks refs scs e) : e.tableId = s.normalize t.id := by
  obtain ⟨b, hb, he⟩ := h.grown
  rw [he]
  exact (Entity.blank_eq_ok hb).2.1

theorem name_eq (h : Completes c s schema t v ks refs scs e) :
    entityName c s t.id = .ok e.name := by
  obtain ⟨b, hb, he⟩ := h.grown
  rw [he]
  exact (Entity.blank_eq_ok hb).2.2.1

theorem properties_eq (h : Completes c s schema t v ks refs scs e) :
    e.properties = v.toList ++ refs ++ scs := by
  obtain ⟨_, _, he⟩ := h.grown
  rw [he]

theorem version_eq (h : Completes c s schema t v ks refs scs e) : e.version = v := by
  obtain ⟨_, _, he⟩ := h.grown
  rw [he]

end Completes

/-- What the version step leaves behind, when nothing but the key is claimed before it. -/
theorem Draft.Versions.parts {d d' : Draft} {o : Option Column} {v : Option Property}
    (h : Versions c d o v d') (hv : d.entity.version = none)
    (hfree : ∀ col ∈ o, d.claims.has col = false) (hn : (nameKeys d.claims.columns).Nodup) :
    d'.entity = { d.entity.extend v.toList with version := v } ∧
      d'.claims.columns = d.claims.columns ++ o.toList ∧
      v.toList.flatMap Property.columns = o.toList ∧ (nameKeys d'.claims.columns).Nodup ∧
      ∃ qs, List.Forall₂ (Property.IsSketchOf c d.entity.tableId .version) o.toList qs ∧
        v.toList = Property.nameInOrder d.entity.names qs := by
  cases h with
  | kept =>
    refine ⟨?_, by simp, rfl, hn, [], .nil, rfl⟩
    rcases d with ⟨e, _⟩
    cases e
    simp_all [Entity.extend]
  | @added n p col d₁ asked named adds =>
    have hcol := hfree col rfl
    have hcols : d₁.claims.columns = d.claims.columns ++ [col] := by
      rw [adds.claims_eq, Claims.columns_insert_of_free hcol]
    refine ⟨by simp [adds.entity_eq], hcols, by simp [adds.made.columns_eq], ?_,
      [p.named n], .cons ⟨asked, adds.made.named n⟩ .nil, ?_⟩
    · simp only [hcols, nameKeys_append]
      exact hn.append (by simp) (by simpa using Claims.has_eq_false_iff.1 hcol)
    · rw [Property.nameInOrder, Property.named_name, ← named]
      rfl

namespace Draft

/-- The draft after two steps: the blank entity with its identifier, and with its version if there
is a column for it. -/
structure IsVersioned (c : Convention) (s : Settings) (t : Table) (b : Entity) (o : Option Column)
    (v : Option Property) (d : Draft) : Prop where
  grown : d.entity =
    { b with identifier := d.entity.identifier, properties := v.toList, version := v }
  claimed : d.claims = startingClaims t v
  claims_nodup : (nameKeys d.claims.columns).Nodup
  kind_iff : d.entity.identifier.kind = .none ↔ t.primaryKey = none
  identified : List.Forall₂ (fun col p => p.IsMadeFrom c (s.normalize t.id) col .scalar true)
    t.keyColumns d.entity.identifier.properties
  searched : versionColumn c t (s.normalize t.id) ⟨t.keyColumns⟩ = .ok o
  columns_eq : v.toList.flatMap Property.columns = o.toList
  versioned : ∀ p ∈ v, ∃ col ∈ t.columns, p.IsMadeFrom c (s.normalize t.id) col .version false
  sketched : ∃ qs, List.Forall₂ (Property.IsSketchOf c (s.normalize t.id) .version) o.toList qs ∧
    v.toList = Property.nameInOrder { b with identifier := d.entity.identifier }.names qs
  asked : ∃ ws, identify c s ⟨b, {}⟩ = ⟨.ok d.entity.identifier,
    ⟨{ b with identifier := d.entity.identifier }, ⟨t.keyColumns⟩⟩, ws⟩

theorem isVersioned_of_eq_ok {b : Entity} {d : Draft} {v : Option Property} {ws : List Warning}
    (hb : Entity.blank c s t = .ok b)
    (h : ((identify c s ⟨b, {}⟩).andThen fun _ d => d.addVersionOf c) = ⟨.ok v, d, ws⟩) :
    ∃ o, IsVersioned c s t b o v d := by
  obtain ⟨htable, hid, _, hprops, hversion, _⟩ := Entity.blank_eq_ok hb
  obtain ⟨i, d₁, _, _, h₁, h₂, _⟩ := Outcome.andThen_eq_ok.1 h
  obtain ⟨he₁, hi⟩ := identify_eq_ok h₁
  obtain ⟨o, ho, hv⟩ := addVersionOf_eq_ok h₂
  have hclaims₁ : d₁.claims = ⟨t.keyColumns⟩ := by
    rcases d₁ with ⟨_, ⟨_⟩⟩
    rw [← htable]
    exact congrArg Claims.mk hi.claimed
  have htable₁ : d₁.entity.table = t := by rw [he₁]; exact htable
  have hid₁ : d₁.entity.tableId = s.normalize t.id := by rw [he₁]; exact hid
  rw [htable₁, hid₁] at ho
  have hfree : ∀ col ∈ o, col ∈ t.columns ∧ d₁.claims.has col = false := by
    rintro col rfl
    exact versionColumn_eq_some ho
  obtain ⟨he, hc, hov, hn, vs, hvs, hver⟩ :=
    hv.parts (by rw [he₁]; exact hversion) (fun col hcol => (hfree col hcol).2) hi.nodup
  rw [hid₁] at hvs
  rw [he₁] at hver
  have hentity : d.entity = { b with identifier := i, properties := v.toList, version := v } := by
    rw [he, he₁]
    simp [Entity.extend, hprops]
  refine ⟨o, ⟨by rw [hentity], ?_, hn, ?_, ?_, hclaims₁ ▸ ho, hov, ?_,
    ⟨vs, hvs, by rw [hver, hentity]⟩, ?_⟩⟩
  · rw [hclaims₁] at hc
    rcases d with ⟨_, ⟨_⟩⟩
    rw [startingClaims, hov]
    exact congrArg Claims.mk hc
  · rw [hentity, ← htable]
    exact hi.kind_iff
  · rw [hentity, ← hid, ← htable]
    exact hi.made
  · intro p hp
    have hmade := forall₂_isMadeFrom { b with identifier := i }.names hvs
    rw [← hver] at hmade
    obtain ⟨col, hcol, hm⟩ := hmade.exists_left (Option.mem_toList.2 hp)
    exact ⟨col, (hfree col (Option.mem_toList.1 hcol)).1, hm⟩
  · rw [hentity, ← hclaims₁]
    rcases d₁ with ⟨e₁, t₁⟩
    cases he₁
    exact ⟨_, h₁⟩

namespace IsVersioned
variable {b : Entity} {o : Option Column} {v : Option Property} {d : Draft}

theorem table_eq (h : IsVersioned c s t b o v d) (hb : Entity.blank c s t = .ok b) :
    d.entity.table = t := by
  rw [h.grown]
  exact (Entity.blank_eq_ok hb).1

theorem tableId_eq (h : IsVersioned c s t b o v d) (hb : Entity.blank c s t = .ok b) :
    d.entity.tableId = s.normalize t.id := by
  rw [h.grown]
  exact (Entity.blank_eq_ok hb).2.1

end IsVersioned

theorem complete_steps {b : Entity} {d : Draft} {ws : List Warning}
    (h : complete c s schema ⟨b, {}⟩ = ⟨.ok (), d, ws⟩) :
    ∃ v d₂ vs refs d₃ us scs ts,
      ((identify c s ⟨b, {}⟩).andThen fun _ d => d.addVersionOf c) = ⟨.ok v, d₂, vs⟩ ∧
      d₂.addReferencesOf c s schema = ⟨.ok refs, d₃, us⟩ ∧
      d₃.addScalarsOf c = ⟨.ok scs, d, ts⟩ := by
  obtain ⟨refs, d₃, _, _, h₁₃, h₄, _⟩ := Outcome.andThen_eq_ok.1 h
  obtain ⟨v, d₂, _, _, h₁₂, h₃, _⟩ := Outcome.andThen_eq_ok.1 h₁₃
  obtain ⟨scs, h₄, _⟩ := Outcome.map_eq_ok.1 h₄
  exact ⟨v, d₂, _, refs, d₃, _, scs, _, h₁₂, h₃, h₄⟩

theorem complete_eq_ok {b : Entity} {d : Draft} {ws : List Warning}
    (hb : Entity.blank c s t = .ok b)
    (h : complete c s schema ⟨b, {}⟩ = ⟨.ok (), d, ws⟩) :
    ∃ v ks refs scs, Completes c s schema t v ks refs scs d.entity := by
  obtain ⟨v, d₂, _, refs, d₃, _, scs, _, h₁₂, h₃, h₄⟩ := complete_steps h
  obtain ⟨o, hv⟩ := isVersioned_of_eq_ok hb h₁₂
  have htable := hv.table_eq hb
  obtain ⟨ks, hks, hrefs, hnew, he₃, hc₃⟩ := addReferences_eq_ok h₃
  have hn : (nameKeys d₃.entity.table.columns).Nodup := d₃.entity.table.nameKeys_nodup
  obtain ⟨hscs, he₄⟩ := addScalars_eq_ok hn h₄
  have hi : d.entity.identifier = d₂.entity.identifier := by
    rw [he₄, he₃]
    rfl
  have hgrown : d.entity =
      { b with
        identifier := d₂.entity.identifier
        properties := v.toList ++ refs ++ scs
        version := v } := by
    rw [he₄, he₃, hv.grown]
    simp [Entity.extend]
  refine ⟨v, ks, refs, scs, ⟨⟨b, hb, by rw [hi, hgrown]⟩, hi ▸ hv.kind_iff, hi ▸ hv.identified,
    hv.claimed ▸ hv.claims_nodup, hv.versioned, ?_, hrefs, hnew, ?_⟩⟩
  · rwa [hv.claimed, htable] at hks
  · have htable₃ : d₃.entity.table = t := by rw [he₃]; exact htable
    have hid₃ : d₃.entity.tableId = s.normalize t.id := by rw [he₃]; exact hv.tableId_eq hb
    rwa [htable₃, hid₃, hc₃, hv.claimed] at hscs

end Draft

def TableBinding.ofEntity (e : Entity) : TableBinding :=
  { table := e.table, stage := .registered, tableId := some e.tableId, entity := some e.name }

/-- The entity of a table is completed in one way or another. -/
def IsCompleted (c : Convention) (s : Settings) (schema : Schema) (t : Table) (e : Entity) : Prop :=
  ∃ v ks refs scs, Completes c s schema t v ks refs scs e

theorem IsCompleted.table_eq {e : Entity} (h : IsCompleted c s schema t e) : e.table = t := by
  obtain ⟨_, _, _, _, h⟩ := h
  exact h.table_eq

theorem IsCompleted.tableId_eq {e : Entity} (h : IsCompleted c s schema t e) :
    e.tableId = s.normalize t.id := by
  obtain ⟨_, _, _, _, h⟩ := h
  exact h.tableId_eq

theorem IsCompleted.name_eq {e : Entity} (h : IsCompleted c s schema t e) :
    entityName c s t.id = .ok e.name := by
  obtain ⟨_, _, _, _, h⟩ := h
  exact h.name_eq

/-- The entity that the first pass makes of a table, if it does not refuse it. -/
def Entity.ofTable (c : Convention) (s : Settings) (schema : Schema) (t : Table) :
    Except Refusal Entity :=
  match Entity.blank c s t with
  | .error fault => .error (.unanswered fault)
  | .ok b =>
    let o := Draft.complete c s schema ⟨b, {}⟩
    o.answer.map fun _ => o.state.entity

theorem Entity.ofTable_eq_ok {e : Entity} : Entity.ofTable c s schema t = .ok e ↔
    ∃ b d ws, Entity.blank c s t = .ok b ∧
      Draft.complete c s schema ⟨b, {}⟩ = ⟨.ok (), d, ws⟩ ∧ d.entity = e := by
  rw [ofTable]
  cases hb : Entity.blank c s t with
  | error fault => simp
  | ok b =>
    rcases ho : Draft.complete c s schema ⟨b, {}⟩ with ⟨_ | _, d, ws⟩ <;>
      simp [Except.map, ho]

theorem Entity.ofTable_rightUnique :
    Relator.RightUnique fun t e => Entity.ofTable c s schema t = .ok e :=
  fun _ _ _ hd he => Except.ok.inj (hd.symm.trans he)

theorem Entity.isCompleted_of_ofTable {e : Entity} (h : Entity.ofTable c s schema t = .ok e) :
    IsCompleted c s schema t e := by
  obtain ⟨b, d, ws, hb, ho, rfl⟩ := ofTable_eq_ok.1 h
  exact Draft.complete_eq_ok hb ho

namespace Registry

theorem bind_eq_ok {r r' : Registry} {b : TableBinding} {ws : List Warning}
    (h : r.bind c s schema t = ⟨.ok b, r', ws⟩) :
    ∃ e, Entity.ofTable c s schema t = .ok e ∧ r.enter e = .ok r' ∧ b = .ofEntity e := by
  rw [bind_eq] at h
  obtain ⟨blank, hblank, h⟩ := Outcome.ask_eq_ok.1 h
  dsimp only at h
  generalize ho : Draft.complete c s schema ⟨blank, {}⟩ = o at h
  rcases o with ⟨_ | _, d, us⟩
  · cases h
  · have hc := Draft.complete_eq_ok hblank ho
    simp only at h
    cases he : r.enter d.entity with
    | error refusal => simp [he] at h
    | ok r₁ =>
      rw [he] at h
      cases h
      refine ⟨d.entity, Entity.ofTable_eq_ok.2 ⟨blank, d, _, hblank, ho, rfl⟩, he, ?_⟩
      rw [TableBinding.ofEntity, IsCompleted.table_eq hc, IsCompleted.tableId_eq hc]

theorem bind_of_enter {r r' : Registry} {e : Entity} (he : Entity.ofTable c s schema t = .ok e)
    (h : r.enter e = .ok r') : ∃ ws, r.bind c s schema t = ⟨.ok (.ofEntity e), r', ws⟩ := by
  have hc := Entity.isCompleted_of_ofTable he
  obtain ⟨b, d, ws, hb, ho, rfl⟩ := Entity.ofTable_eq_ok.1 he
  refine ⟨ws, ?_⟩
  rw [bind_eq, hb, Outcome.ask_ok]
  simp only [ho, h, TableBinding.ofEntity, hc.table_eq, hc.tableId_eq]

/-- A pass over some tables appends one entity for each of them, in their order. -/
theorem bindAll_eq_ok {ts : List Table} {r r' : Registry} {bs : List TableBinding}
    {ws : List Warning} (h : bindAll c s schema ts r = ⟨.ok bs, r', ws⟩) (hr : r.Sound)
    (hts : (ts.map fun t => t.id.key).Nodup) (hnew : ∀ t ∈ ts, t.id.key ∉ r.tableKeys) :
    ∃ es, List.Forall₂ (fun t e => Entity.ofTable c s schema t = .ok e) ts es ∧
      bs = es.map .ofEntity ∧ r'.entities = r.entities ++ es.map Entity.freeze ∧ r'.Sound := by
  induction ts generalizing r bs ws with
  | nil =>
    obtain ⟨rfl, rfl, _⟩ := Outcome.done_eq_ok.1 h
    exact ⟨[], .nil, rfl, by simp, hr⟩
  | cons t ts ih =>
    simp only [bindAll, Outcome.andThen_eq_ok, Outcome.map_eq_ok] at h
    obtain ⟨b, r₁, _, us, hb, ⟨bs, hbs, rfl⟩, _⟩ := h
    obtain ⟨e, he, henter, rfl⟩ := bind_eq_ok hb
    have htable := (Entity.isCompleted_of_ofTable he).table_eq
    obtain ⟨hfirst, hrest⟩ := List.nodup_cons.1 hts
    have hsound : r₁.Sound := by
      apply sound_enter hr henter
      rw [htable]
      exact hnew t List.mem_cons_self
    have hnew₁ : ∀ u ∈ ts, u.id.key ∉ r₁.tableKeys := by
      intro u hu
      rw [tableKeys_enter henter, htable, List.mem_append, List.mem_singleton]
      rintro (hold | heq)
      · exact hnew u (List.mem_cons_of_mem _ hu) hold
      · exact hfirst (List.mem_map.2 ⟨u, hu, heq⟩)
    obtain ⟨es, hall, rfl, hent, hs⟩ := ih hbs hsound hrest hnew₁
    refine ⟨e :: es, .cons he hall, rfl, ?_, hs⟩
    obtain ⟨_, rfl⟩ := enter_eq_ok.1 henter
    simp [hent]

theorem bindAll_isOk {ts : List Table} {es : List Entity}
    (hes : List.Forall₂ (fun t e => Entity.ofTable c s schema t = .ok e) ts es) {r : Registry}
    (hn : (r.nameKeys ++ es.map fun e => e.name.key).Nodup) :
    ∃ bs r' ws, bindAll c s schema ts r = ⟨.ok bs, r', ws⟩ := by
  induction hes generalizing r with
  | nil => exact ⟨[], r, [], rfl⟩
  | @cons t e ts es he _ ih =>
    rw [List.map_cons, List.append_cons] at hn
    have hfree : e.name.key ∉ r.nameKeys := by
      have hfirst := hn.sublist (List.sublist_append_left _ _)
      rw [List.nodup_append] at hfirst
      exact fun hm => hfirst.2.2 _ hm _ (List.mem_singleton_self _) rfl
    have henter := enter_eq_ok.2 ⟨hfree, rfl⟩
    obtain ⟨ws, hb⟩ := bind_of_enter he henter
    rw [← nameKeys_enter henter] at hn
    obtain ⟨bs, r', us, hbs⟩ := ih hn
    refine ⟨.ofEntity e :: bs, r', ws ++ us, ?_⟩
    rw [bindAll, hb, Outcome.andThen_ok, hbs]
    rfl

end Registry
end EntityMapping
