import EntityMapping.Proofs.Derivation.DistinctNames

/-! # Entities grow by collections

A sealed entity that takes properties stays the one that it was, with collections behind the
properties that it had. The second pass lets every entity of the registry grow in this way, however
far it gets, and leaves out nothing but the collections of entities without identifier.
-/
namespace EntityMapping

variable {c : Convention} {s : Settings} {schema : Schema}

namespace Entity

/-- The entity with further collections behind its properties. -/
def GrowsTo (d e : Entity) : Prop := ∃ ps, (∀ p ∈ ps, p.kind = .collection) ∧ e = d.extend ps

theorem growsTo_refl (e : Entity) : e.GrowsTo e := ⟨[], nofun, e.extend_nil.symm⟩

namespace GrowsTo
variable {d e e' : Entity}

theorem trans (h : d.GrowsTo e) (h' : e.GrowsTo e') : d.GrowsTo e' := by
  obtain ⟨ps, hps, rfl⟩ := h
  obtain ⟨qs, hqs, rfl⟩ := h'
  refine ⟨ps ++ qs, fun p hp => ?_, d.extend_extend ps qs⟩
  rcases List.mem_append.1 hp with hp | hp
  · exact hps p hp
  · exact hqs p hp

theorem isSealed_eq (h : d.GrowsTo e) : e.isSealed = d.isSealed := by
  obtain ⟨ps, _, rfl⟩ := h
  rfl

theorem name_eq (h : d.GrowsTo e) : e.name = d.name := by
  obtain ⟨ps, _, rfl⟩ := h
  rfl

theorem agreesAsOwner (h : d.GrowsTo e) : d.AgreesAsOwner e := by
  obtain ⟨ps, hps, rfl⟩ := h
  exact agreesAsOwner_extend hps

/-- The seal lets only collections through. -/
theorem add (hd : d.isSealed = true) (h : d.GrowsTo e) {p : Property} (ha : e.add p = .ok e') :
    d.GrowsTo e' := by
  obtain ⟨hkind, _, rfl⟩ := add_eq_ok.1 ha
  refine h.trans ⟨[p], fun q hq => ?_, rfl⟩
  rw [List.mem_singleton.1 hq]
  exact hkind (h.isSealed_eq.trans hd)

end GrowsTo

variable {Q : Warning → Prop} {d e : Entity}

theorem addCollection_keeps (hd : d.isSealed = true) (h : d.GrowsTo e) (he : e.HasDistinctNames)
    (owner : Entity) (f : ForeignKey) :
    (addCollection c e owner f).Keeps (fun e => d.GrowsTo e ∧ e.HasDistinctNames) Q := by
  refine Outcome.keeps_ask ⟨h, he⟩ fun p _ => ?_
  split
  · exact Outcome.keeps_refused ⟨h, he⟩
  · rename_i e' ha
    exact Outcome.keeps_done ⟨h.add hd ha, he.add ha⟩

theorem addCollections_keeps (hd : d.isSealed = true) (h : d.GrowsTo e) (he : e.HasDistinctNames)
    {r : Registry} {fs : List ForeignKey}
    (hQ : ∀ f ∈ fs, r.ofTable? f.table = none → Q (.ownerUnbound f)) :
    (addCollections c r fs e).Keeps (fun e => d.GrowsTo e ∧ e.HasDistinctNames) Q := by
  induction fs generalizing e with
  | nil => exact Outcome.keeps_done ⟨h, he⟩
  | cons f fs ih =>
    have hrest : ∀ g ∈ fs, r.ofTable? g.table = none → Q (.ownerUnbound g) := fun g hg =>
      hQ g (List.mem_cons_of_mem _ hg)
    refine Outcome.keeps_ask ⟨h, he⟩ fun isSkipped _ => ?_
    split
    · exact ih h he hrest
    · split
      · rename_i hnone
        exact Outcome.keeps_warn ⟨h, he⟩ (hQ f List.mem_cons_self hnone) (ih h he hrest)
      · exact (addCollection_keeps hd h he _ f).andThen fun _ _ _ _ h' =>
          (ih h'.1 h'.2 hrest).map

/-- A warning is issued only for keys without a known owner. -/
theorem collect_keeps (hd : e.isSealed = true) (he : e.HasDistinctNames) {x : ReferenceIndex}
    {r : Registry}
    (hQ : ∀ f ∈ x.leadingTo e.name, r.ofTable? f.table = none → Q (.ownerUnbound f)) :
    (e.collect c x r).Keeps (fun e' => e.GrowsTo e' ∧ e'.HasDistinctNames) Q := by
  have hstart := e.growsTo_refl
  refine Outcome.keeps_ask ⟨hstart, he⟩ fun name hname => ?_
  obtain ⟨_, rfl⟩ := Document.asKey_eq_ok.1 hname
  split
  · exact Outcome.keeps_done ⟨hstart, he⟩
  · split
    · exact addCollections_keeps hd hstart he hQ
    · exact Outcome.keeps_refused ⟨hstart, he⟩

end Entity

namespace Registry

structure GrowsTo (q r : Registry) : Prop where
  entities : List.Forall₂ Entity.GrowsTo q.entities r.entities
  distinct : ∀ e ∈ r.entities, e.HasDistinctNames
  byTable_eq : q.byTable = r.byTable
  imports_eq : q.imports = r.imports

/-- A registry as the first pass leaves it: sound, and with its entities sealed. -/
structure IsFilled (r : Registry) : Prop where
  sound : r.Sound
  distinct : ∀ e ∈ r.entities, e.HasDistinctNames
  isSealed : ∀ e ∈ r.entities, e.isSealed = true

theorem IsFilled.growsTo {r : Registry} (h : r.IsFilled) : r.GrowsTo r :=
  ⟨List.forall₂_same.2 fun e _ => e.growsTo_refl, h.distinct, rfl, rfl⟩

namespace GrowsTo
variable {q r : Registry}

theorem agreesOnOwners (h : q.GrowsTo r) : q.AgreesOnOwners r :=
  ⟨h.entities.imp fun _ _ he => he.agreesAsOwner, h.byTable_eq, h.imports_eq⟩

theorem isSealed (h : q.GrowsTo r) (hq : q.IsFilled) {e : Entity} (he : e ∈ r.entities) :
    e.isSealed = true := by
  obtain ⟨d, hd, hde⟩ := h.entities.exists_left he
  rw [hde.isSealed_eq]
  exact hq.isSealed d hd

theorem update (h : q.GrowsTo r) (hq : q.Sound) {e e' : Entity} (he : e ∈ r.entities)
    (hgrows : e.GrowsTo e') (hdistinct : e'.HasDistinctNames) : q.GrowsTo (r.update e') := by
  have hr : r.Sound := h.agreesOnOwners.sound hq
  have hplace : ∀ d ∈ r.entities, d.name.same e'.name → d = e := by
    intro d hd hs
    rw [hgrows.name_eq] at hs
    exact List.inj_on_of_nodup_map hr.names_nodup hd he (Document.same_iff.1 hs)
  refine ⟨?_, ?_, h.byTable_eq, h.imports_eq⟩
  · refine List.forall₂_map_right_iff.2 (h.entities.imp_of_mem fun a _ d hd had => ?_)
    split
    · rename_i hs
      rw [hplace d hd hs] at had
      exact had.trans hgrows
    · exact had
  · intro d hd
    obtain ⟨d', hd', rfl⟩ := List.mem_map.1 hd
    split
    · exact hdistinct
    · exact h.distinct d' hd'

end GrowsTo

variable {x : ReferenceIndex} {q r : Registry}

theorem GrowsTo.isFilled (h : q.GrowsTo r) (hq : q.IsFilled) : r.IsFilled :=
  ⟨h.agreesOnOwners.sound hq.sound, h.distinct, fun _ he => h.isSealed hq he⟩

theorem collect_keeps {Q : Warning → Prop} (hQ : ∀ w, w.IsOfCollecting → Q w) (hq : q.IsFilled)
    (howned : ∀ n, ∀ f ∈ x.leadingTo n, q.ofTable? f.table = none → Q (.ownerUnbound f))
    (h : q.GrowsTo r) (b : TableBinding) : (r.collect c x b).Keeps q.GrowsTo Q := by
  rw [collect_eq]
  split
  · exact Outcome.keeps_refused h
  · split
    · exact Outcome.keeps_refused h
    · rename_i e hget
      obtain ⟨n, _, hn⟩ := Option.bind_eq_some_iff.1 hget
      have he := (mem_of_get?_eq_some hn).1
      have hkeeps := Entity.collect_keeps (c := c) (Q := Q) (x := x) (r := r) (h.isSealed hq he)
        (h.distinct e he) fun f hf hnone => howned e.name f hf (by
          rw [← Option.not_isSome_iff_eq_none] at hnone ⊢
          exact fun hsome => hnone (h.agreesOnOwners.isSome_ofTable? hsome))
      have hgrown := h.update hq.sound he hkeeps.state.1 hkeeps.state.2
      apply Outcome.Keeps.map
      unfold addCollectionsOf
      dsimp only
      split
      · exact Outcome.keeps_warn h (hQ _ trivial) (Outcome.keeps_done h)
      · exact ⟨hgrown, hkeeps.warnings⟩

/-- Where the owners of all keys are known, nothing is left out but the collections of entities
without identifier. -/
theorem collectAll_keeps (hq : q.IsFilled)
    (howned : ∀ n, ∀ f ∈ x.leadingTo n, (q.ofTable? f.table).isSome) (h : q.GrowsTo r)
    (bs : List TableBinding) : (collectAll c x bs r).Keeps q.GrowsTo Warning.IsOfCollecting := by
  induction bs generalizing r with
  | nil => exact Outcome.keeps_done h
  | cons b bs ih =>
    have hnone : ∀ n, ∀ f ∈ x.leadingTo n, q.ofTable? f.table = none →
        (Warning.ownerUnbound f).IsOfCollecting := by
      intro n f hf hnone
      have hfound := howned n f hf
      rw [hnone] at hfound
      cases hfound
    exact (collect_keeps (fun _ hw => hw) hq hnone h b).andThen fun _ _ _ _ h' => (ih h').map

theorem isFilled_of_bindAll {bs : List TableBinding} {ws : List Warning}
    (h : bindAll c s schema schema.tables {} = ⟨.ok bs, q, ws⟩) :
    q.IsFilled ∧ schema.tables = q.entities.map Entity.table := by
  obtain ⟨es, hall, _, hent, hsound, htables⟩ := bindAll_tables_eq_ok h
  have hkeeps := bindAll_empty_keeps c s schema schema.tables
  rw [h] at hkeeps
  refine ⟨⟨hsound, hkeeps.state, fun e he => ?_⟩, htables⟩
  rw [hent] at he
  obtain ⟨d, _, rfl⟩ := List.mem_map.1 he
  rfl

/-- Over the registry of a first pass, the second one adds collections and nothing else, however
many tables it gets to. -/
theorem collectAll_bound_keeps {bs : List TableBinding} {ws : List Warning}
    (hx : ReferenceIndex.ofSchema c s schema = .ok x)
    (h : bindAll c s schema schema.tables {} = ⟨.ok bs, q, ws⟩) (bs' : List TableBinding) :
    (collectAll c x bs' q).Keeps q.GrowsTo Warning.IsOfCollecting := by
  obtain ⟨hq, htables⟩ := isFilled_of_bindAll h
  exact collectAll_keeps hq (isSome_ofTable?_of_leadingTo hx hq.sound htables) hq.growsTo bs'

/-- A run warns of nothing but what it leaves out of a table or of an entity without identifier. -/
theorem warnings_derive :
    ∀ w ∈ (derive c s schema).warnings, w.IsOfBinding ∨ w.IsOfCollecting := by
  have hkeeps : (derive c s schema).Keeps (fun _ => True)
      fun w => w.IsOfBinding ∨ w.IsOfCollecting := by
    refine Outcome.keeps_ask trivial fun x hx => ?_
    have hbind := bindAll_empty_keeps c s schema schema.tables
    refine (hbind.mono (fun _ _ => trivial) fun _ => .inl).andThen fun bs q ws h _ => ?_
    exact (collectAll_bound_keeps hx h bs).mono (fun _ _ => trivial) fun _ => .inr
  exact hkeeps.warnings

end Registry
end EntityMapping
