import EntityMapping.Proofs.Derivation.Growth

/-! # One step of the second pass

Over any index and any registry with sealed entities, a step that goes through replaces one entity
by what its collections make of it. What it reads of the other entities is what they are as owners
of keys, and that is the same however far the second pass has come.
-/
namespace EntityMapping

variable {c : Convention} {x : ReferenceIndex}

namespace Entity
variable {q r : Registry} {e e' : Entity}

theorem AgreesAsOwner.collectionProperty_eq {d d' : Entity} (h : d.AgreesAsOwner d') (e : Entity)
    (f : ForeignKey) : collectionProperty c e d f = collectionProperty c e d' f := by
  simp only [collectionProperty, h.name_eq, h.table_eq, h.referenceFor?_eq]

theorem addCollections_congr (h : q.AgreesOnOwners r) (fs : List ForeignKey) (e : Entity) :
    addCollections c q fs e = addCollections c r fs e := by
  induction fs generalizing e with
  | nil => rfl
  | cons f fs ih =>
    have howner := h.ofTable? f.table
    simp only [addCollections, ih]
    generalize q.ofTable? f.table = a at howner
    generalize r.ofTable? f.table = b at howner
    cases howner with
    | none => rfl
    | some hab => simp only [addCollection, hab.collectionProperty_eq]

/-- The collections of an entity depend on the other entities only as owners of keys. -/
theorem collect_congr (h : q.AgreesOnOwners r) (e : Entity) :
    e.collect c x q = e.collect c x r := by
  simp only [collect, addCollections_congr h]

theorem answer_collect_eq_error {refusal : Refusal}
    (h : (e.collect c x r).answer = .error refusal) :
    refusal = .noIdentifier e.name e.table.id ∨ ∃ fault, refusal = .unanswered fault := by
  rcases Outcome.answer_ask_eq_error.1 h with ⟨fault, _, hf⟩ | ⟨name, _, h⟩
  · exact .inr ⟨fault, hf⟩
  split at h
  · cases h
  · split at h
    · exact .inr (answer_addCollections_eq_error h)
    · exact .inl (Except.error.inj h).symm

/-- The second pass turns the entity into the other one, or it leaves the entity as it is and tells
that it lacks an identifier. -/
def EndsAs (c : Convention) (x : ReferenceIndex) (r : Registry) (e e' : Entity) : Prop :=
  (∃ ps ws, e.collect c x r = ⟨.ok ps, e', ws⟩) ∨
    e' = e ∧ ∃ n id m, (e.collect c x r).answer = .error (.noIdentifier n id) ∧
      (Warning.collectionsSkipped n id).message = .ok m

theorem endsAs_congr (h : q.AgreesOnOwners r) : EndsAs c x q e e' ↔ EndsAs c x r e e' := by
  rw [EndsAs, EndsAs, collect_congr h]

theorem EndsAs.growsTo (he : EndsAs c x r e e') (hs : e.isSealed = true)
    (hn : e.HasDistinctNames) : e.GrowsTo e' ∧ e'.HasDistinctNames := by
  rcases he with ⟨ps, ws, ho⟩ | ⟨rfl, _⟩
  · have hkeeps := collect_keeps (c := c) (Q := fun _ => True) (x := x) (r := r) hs hn
      fun _ _ _ => trivial
    rw [ho] at hkeeps
    exact hkeeps.state
  · exact ⟨e'.growsTo_refl, hn⟩

end Entity

def TableBinding.IsApartFrom (a b : TableBinding) : Prop :=
  ∀ m ∈ a.entity, ∀ n ∈ b.entity, ¬ m.same n

theorem TableBinding.IsApartFrom.symm {a b : TableBinding} (h : a.IsApartFrom b) :
    b.IsApartFrom a := by
  intro n hn m hm
  rw [Document.same_comm]
  exact h m hm n hn

namespace Registry
variable {b : TableBinding} {r r' : Registry}

def Finishes (c : Convention) (x : ReferenceIndex) (b : TableBinding) (r r' : Registry) : Prop :=
  ∃ a ws, r.collect c x b = ⟨.ok a, r', ws⟩

theorem finished_of_collect {a : List Property × TableBinding} {ws : List Warning}
    (h : r.collect c x b = ⟨.ok a, r', ws⟩) : b.stage = .registered ∧ a.2 = b.finished := by
  obtain ⟨hstage, _, _, _, ha⟩ := collect_eq_ok_iff.1 h
  exact ⟨hstage, ha⟩

/-- An entity that is there gets its collections when it ends in one way or the other. -/
theorem addCollectionsOf_isOk_iff (hr : r.Sound) {e : Entity}
    (hget : b.entity.bind r.get? = some e) :
    (∃ ps ws, r.addCollectionsOf c x e = ⟨.ok ps, r', ws⟩) ↔
      ∃ e', Entity.EndsAs c x r e e' ∧ r' = r.update e' := by
  obtain ⟨n, _, hn⟩ := Option.bind_eq_some_iff.1 hget
  have hsame : r.update e = r := update_self hr (mem_of_get?_eq_some hn).1
  constructor
  · rintro ⟨ps, ws, h⟩
    unfold addCollectionsOf at h
    rcases ho : e.collect c x r with ⟨refusal | qs, e', us⟩
    · rw [ho] at h
      cases refusal with
      | noIdentifier n id =>
        obtain ⟨⟨m, hm⟩, _, h, _⟩ := Outcome.warn_eq_ok.1 h
        obtain ⟨_, rfl, _⟩ := Outcome.done_eq_ok.1 h
        exact ⟨e, .inr ⟨rfl, n, id, m, by rw [ho], hm⟩, hsame.symm⟩
      | _ => cases h
    · rw [ho] at h
      cases h
      exact ⟨e', .inl ⟨ps, us, ho⟩, rfl⟩
  · rintro ⟨e', ⟨ps, ws, ho⟩ | ⟨rfl, n, id, m, ho, hm⟩, rfl⟩
    · rw [addCollectionsOf, ho]
      exact ⟨_, _, rfl⟩
    · rw [addCollectionsOf, ho, hsame]
      simp only [Outcome.warn_of_message hm]
      exact ⟨_, _, rfl⟩

/-- A table that is registered goes through when its entity does, which then takes its place. -/
theorem finishes_iff (hr : r.Sound) : Finishes c x b r r' ↔ b.stage = .registered ∧
    ∃ e e', b.entity.bind r.get? = some e ∧ Entity.EndsAs c x r e e' ∧ r' = r.update e' := by
  constructor
  · rintro ⟨a, ws, h⟩
    obtain ⟨hstage, e, hget, h, _⟩ := collect_eq_ok_iff.1 h
    obtain ⟨e', he, hr'⟩ := (addCollectionsOf_isOk_iff hr hget).1 ⟨a.1, ws, h⟩
    exact ⟨hstage, e, e', hget, he, hr'⟩
  · rintro ⟨hstage, e, e', hget, he, hr'⟩
    obtain ⟨ps, ws, h⟩ := (addCollectionsOf_isOk_iff hr hget).2 ⟨e', he, hr'⟩
    exact ⟨(ps, b.finished), ws, collect_eq_ok_iff.2 ⟨hstage, e, hget, h, rfl⟩⟩

theorem growsTo_collect (hr : r.IsFilled) (c : Convention) (x : ReferenceIndex)
    (b : TableBinding) : r.GrowsTo (r.collect c x b).state :=
  (collect_keeps (Q := fun _ => True) (fun _ _ => trivial) hr (fun _ _ _ _ => trivial)
    hr.growsTo b).state

theorem Finishes.growsTo (hr : r.IsFilled) (h : Finishes c x b r r') : r.GrowsTo r' := by
  obtain ⟨a, ws, h⟩ := h
  have hgrows := growsTo_collect hr c x b
  rwa [h] at hgrows

/-- However it ends, a step changes no other entity than that of the table. -/
theorem get?_collect (hr : r.IsFilled) {n : Name} (hn : ∀ m ∈ b.entity, ¬ m.same n) :
    (r.collect c x b).state.get? n = r.get? n := by
  rw [collect_eq]
  split
  · rfl
  · split
    · rfl
    · rename_i e hget
      obtain ⟨m, hm, hmget⟩ := Option.bind_eq_some_iff.1 hget
      obtain ⟨he, hkey⟩ := mem_of_get?_eq_some hmget
      have hgrows := (Entity.collect_keeps (c := c) (Q := fun _ => True) (x := x) (r := r)
        (hr.isSealed e he) (hr.distinct e he) fun _ _ _ => trivial).state.1
      have hupdate : (r.update (e.collect c x r).state).get? n = r.get? n := by
        apply get?_update_of_ne
        rw [hgrows.name_eq, Document.same_iff, hkey, ← Document.same_iff]
        exact hn m hm
      change (r.addCollectionsOf c x e).state.get? n = r.get? n
      unfold addCollectionsOf
      dsimp only
      split
      · unfold Outcome.warn Outcome.ask
        split <;> rfl
      · exact hupdate

theorem collect_of_stage (h : b.stage ≠ .registered) :
    r.collect c x b = .refused (.notRegistered b.table.id b.stage) r := if_pos h

theorem answer_collect_eq_error {refusal : Refusal} (hstage : b.stage = .registered)
    (h : (r.collect c x b).answer = .error refusal) : ∃ fault, refusal = .unanswered fault := by
  rw [collect_eq, if_neg (not_not.2 hstage)] at h
  split at h
  · exact ⟨_, (Except.error.inj h).symm⟩
  · rw [Outcome.answer_map_eq_error] at h
    unfold addCollectionsOf at h
    dsimp only at h
    split at h
    · rcases Outcome.answer_warn_eq_error.1 h with ⟨fault, _, hf⟩ | ⟨_, h⟩
      · exact ⟨fault, hf⟩
      · cases h
    · rename_i hne
      rcases Entity.answer_collect_eq_error h with rfl | hfault
      · exact absurd h (hne _ _)
      · exact hfault

end Registry
end EntityMapping
