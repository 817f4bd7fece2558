import EntityMapping.Convention.Basic
import EntityMapping.Proofs.Derivation.Growth
import EntityMapping.Proofs.Relational.Typed

/-! # Distinct names at every point of a run

A run passes through the drafts of its tables, through the registries of the first pass, and through
those of the second pass, in which one entity after the other takes one collection after the other.
At each of these points, also at the one where the run is refused, the names of every entity are
distinct, and from the end of the first pass on entities grow by collections only.
-/
namespace EntityMapping

variable {c : Convention} {s : Settings} {schema : Schema}

/-- The drafts between a blank entity and the end of the first pass over its table: behind the
identifier and the version, and behind some of the keys and some of the columns. -/
inductive Draft.WhileCompleting (c : Convention) (s : Settings) (schema : Schema) (b : Entity) :
    Draft → Prop
  | blank : WhileCompleting c s schema b ⟨b, {}⟩
  | identified : WhileCompleting c s schema b (identify c s ⟨b, {}⟩).state
  | versioned : WhileCompleting c s schema b
      ((identify c s ⟨b, {}⟩).andThen fun _ d => d.addVersionOf c).state
  | referenced {v : Option Property} {d : Draft} {ws : List Warning} {fs gs : List ForeignKey}
      (versioned : ((identify c s ⟨b, {}⟩).andThen fun _ d => d.addVersionOf c) = ⟨.ok v, d, ws⟩)
      (split : d.entity.table.foreignKeys = fs ++ gs) :
      WhileCompleting c s schema b (addReferences c s schema fs d).state
  | scaled {refs : List Property} {d : Draft} {ws : List Warning} {cs ds : List Column}
      (referenced : (((identify c s ⟨b, {}⟩).andThen fun _ d => d.addVersionOf c).andThen
        fun _ d => d.addReferencesOf c s schema) = ⟨.ok refs, d, ws⟩)
      (split : d.entity.table.columns = cs ++ ds) :
      WhileCompleting c s schema b (addScalars c cs [] d).state

namespace Registry

/-- The registries of the first pass, behind some of the tables, with the draft of the next one if
the pass has taken it up. -/
inductive WhileBinding (c : Convention) (s : Settings) (schema : Schema) :
    Registry → Option Draft → Prop
  | between {ts us : List Table} (split : schema.tables = ts ++ us) :
      WhileBinding c s schema (bindAll c s schema ts {}).state none
  | within {ts us : List Table} {t : Table} {bs : List TableBinding} {r : Registry}
      {ws : List Warning} {b : Entity} {d : Draft} (split : schema.tables = ts ++ t :: us)
      (before : bindAll c s schema ts {} = ⟨.ok bs, r, ws⟩) (taken : Entity.blank c s t = .ok b)
      (completing : d.WhileCompleting c s schema b) : WhileBinding c s schema r (some d)

/-- The registries of the second pass over what the first pass has left: behind the collections of
some of the tables, or behind some of the collections of the next one. -/
inductive WhileCollecting (c : Convention) (s : Settings) (schema : Schema) (q : Registry) :
    Registry → Prop
  | between {x : ReferenceIndex} {bs bs' : List TableBinding} {ws : List Warning}
      (gathered : ReferenceIndex.ofSchema c s schema = .ok x)
      (bound : bindAll c s schema schema.tables {} = ⟨.ok (bs ++ bs'), q, ws⟩) :
      WhileCollecting c s schema q (collectAll c x bs q).state
  | within {x : ReferenceIndex} {bs bs' done : List TableBinding} {b : TableBinding}
      {r : Registry} {ws us : List Warning} {e : Entity} {fs gs : List ForeignKey}
      (gathered : ReferenceIndex.ofSchema c s schema = .ok x)
      (bound : bindAll c s schema schema.tables {} = ⟨.ok (bs ++ b :: bs'), q, ws⟩)
      (before : collectAll c x bs q = ⟨.ok done, r, us⟩)
      (taken : b.entity.bind r.get? = some e) (identified : e.hasIdentifier)
      (split : x.leadingTo e.name = fs ++ gs) :
      WhileCollecting c s schema q (r.update (e.addCollections c r fs).state)

end Registry

theorem Draft.WhileCompleting.hasDistinctNames {t : Table} {b : Entity} {d : Draft}
    (hb : Entity.blank c s t = .ok b) (h : d.WhileCompleting c s schema b) :
    d.entity.HasDistinctNames := by
  cases h with
  | blank => exact Entity.hasDistinctNames_blank hb
  | identified => exact (identify_blank_keeps hb).state
  | versioned => exact (versioned_keeps hb).state
  | @referenced v d ws fs gs hv _ =>
    have hd := (versioned_keeps hb).state
    rw [hv] at hd
    exact (addReferences_keeps hd fs).state
  | @scaled refs d ws cs ds href _ =>
    have hd := (@referenced_keeps c s schema t b hb).state
    rw [href] at hd
    exact (addScalars_keeps (Q := Warning.IsOfBinding) hd cs []).state

namespace Registry
variable {q r : Registry}

theorem WhileBinding.hasDistinctNames {o : Option Draft} (h : WhileBinding c s schema r o) :
    (∀ e ∈ r.entities, e.HasDistinctNames) ∧ ∀ d ∈ o, d.entity.HasDistinctNames := by
  cases h with
  | @between ts us _ => exact ⟨(bindAll_empty_keeps c s schema ts).state, by simp⟩
  | @within ts us t bs r ws b d _ before taken completing =>
    have hr := (bindAll_empty_keeps c s schema ts).state
    rw [before] at hr
    refine ⟨hr, ?_⟩
    rintro _ ⟨⟩
    exact completing.hasDistinctNames taken

theorem WhileCollecting.growsTo (h : WhileCollecting c s schema q r) : q.GrowsTo r := by
  cases h with
  | @between x bs bs' ws gathered bound => exact (collectAll_bound_keeps gathered bound bs).state
  | @within x bs bs' done b r ws us e fs gs gathered bound before taken _ _ =>
    have hr := (collectAll_bound_keeps gathered bound bs).state
    rw [before] at hr
    have hq := (isFilled_of_bindAll bound).1
    obtain ⟨n, _, hn⟩ := Option.bind_eq_some_iff.1 taken
    have he := (mem_of_get?_eq_some hn).1
    have hcollect : (e.addCollections c r fs).Keeps (fun e' => e.GrowsTo e' ∧ e'.HasDistinctNames)
        fun _ => True :=
      Entity.addCollections_keeps (hr.isSealed hq he) e.growsTo_refl (hr.distinct e he)
        fun _ _ _ => trivial
    exact hr.update hq.sound he hcollect.state.1 hcollect.state.2

/-- A run ends at one of its points, whether it succeeds or is refused. -/
theorem derive_state (c : Convention) (s : Settings) (schema : Schema) :
    WhileBinding c s schema (derive c s schema).state none ∨
      ∃ q, WhileCollecting c s schema q (derive c s schema).state := by
  unfold derive
  cases gathered : ReferenceIndex.ofSchema c s schema with
  | error fault => exact .inl (.between (List.nil_append _).symm)
  | ok x =>
    rw [Outcome.ask_ok]
    have hbetween : WhileBinding c s schema (bindAll c s schema schema.tables {}).state none :=
      .between (List.append_nil _).symm
    generalize bound : bindAll c s schema schema.tables {} = o at hbetween ⊢
    rcases o with ⟨refusal | bs, q, ws⟩
    · exact .inl hbetween
    · rw [Outcome.andThen_ok, Outcome.state_after]
      exact .inr ⟨q, .between gathered ((List.append_nil bs).symm ▸ bound)⟩

theorem whileCollecting_of_ofSchema (h : ofSchema c s schema = .ok r) :
    ∃ q, WhileCollecting c s schema q r := by
  obtain ⟨x, bs, q, ws, as, us, gathered, bound, hcollect⟩ := passes_of_ofSchema h
  have hend := WhileCollecting.between gathered ((List.append_nil bs).symm ▸ bound)
  rw [hcollect] at hend
  exact ⟨q, hend⟩

/-- At every point of a run all names of an entity are distinct, and the second pass appends
collections to the properties of the first and changes nothing else. Every run ends at one of the
points, and with success at one of the second pass. -/
theorem distinctNames_throughout (c : Convention) (s : Settings) (schema : Schema) :
    (∀ r o, WhileBinding c s schema r o →
      (∀ e ∈ r.entities, e.HasDistinctNames) ∧ ∀ d ∈ o, d.entity.HasDistinctNames) ∧
    (∀ q r, WhileCollecting c s schema q r → (∀ e ∈ r.entities, e.HasDistinctNames) ∧
      List.Forall₂ Entity.GrowsTo q.entities r.entities) ∧
    (WhileBinding c s schema (derive c s schema).state none ∨
      ∃ q, WhileCollecting c s schema q (derive c s schema).state) ∧
    (∀ r, ofSchema c s schema = .ok r → ∃ q, WhileCollecting c s schema q r) :=
  ⟨fun _ _ h => h.hasDistinctNames, fun _ _ h => ⟨h.growsTo.distinct, h.growsTo.entities⟩,
    derive_state c s schema, fun _ h => whileCollecting_of_ofSchema h⟩

/-- The example has a draft with an identifier and a reference in its first pass, and in its second
one an entity that grows. -/
theorem distinctNames_throughout_shop :
    (∃ r d, WhileBinding .plain {} .shop r (some d) ∧ d.entity.hasIdentifier ∧
      d.entity.references ≠ [] ∧ d.entity.HasDistinctNames) ∧
    ∃ q r, WhileCollecting .plain {} .shop q r ∧ ofSchema .plain {} .shop = .ok r ∧
      (∃ e ∈ r.entities, e.collections ≠ []) ∧ (∀ e ∈ r.entities, e.HasDistinctNames) ∧
      List.Forall₂ Entity.GrowsTo q.entities r.entities := by
  obtain ⟨hbinding, hcollecting, _, hends⟩ := distinctNames_throughout .plain {} .shop
  constructor
  · have hbefore : (bindAll .plain {} .shop [.customers] {}).answer.toOption.any fun _ => true := by
      decide +kernel
    obtain ⟨bs, r, ws, before, _⟩ := Outcome.exists_ok_of_answer_any hbefore
    have hblank : (Entity.blank .plain {} .orders).toOption.any fun b =>
        let versioned := (Draft.identify .plain {} ⟨b, {}⟩).andThen fun _ d => d.addVersionOf .plain
        versioned.answer.toOption.any (fun _ => true) ∧
          versioned.state.entity.table.foreignKeys = [.ofOrder] ∧
          let draft := (Draft.addReferences .plain {} .shop [.ofOrder] versioned.state).state
          draft.entity.hasIdentifier ∧ draft.entity.references ≠ [] := by decide +kernel
    obtain ⟨b, taken, hb⟩ := exists_ok_of_toOption_any hblank
    obtain ⟨hanswer, hkeys, hidentified, hreferences⟩ := of_decide_eq_true hb
    obtain ⟨v, d, us, versioned, _⟩ := Outcome.exists_ok_of_answer_any hanswer
    rw [versioned] at hkeys hidentified hreferences
    have split : Schema.shop.tables = [.customers] ++ .orders :: [] := rfl
    have hpoint := WhileBinding.within split before taken
      (.referenced versioned (hkeys.trans (List.append_nil _).symm))
    exact ⟨_, _, hpoint, hidentified, hreferences, (hbinding _ _ hpoint).2 _ rfl⟩
  · have hrun : (ofSchema .plain {} .shop).toOption.any fun r =>
        ∃ e ∈ r.entities, e.collections ≠ [] := by decide
    obtain ⟨r, h, hfound⟩ := exists_ok_of_toOption_any hrun
    obtain ⟨q, hq⟩ := hends r h
    obtain ⟨hnames, hgrown⟩ := hcollecting q r hq
    exact ⟨q, r, hq, h, of_decide_eq_true hfound, hnames, hgrown⟩

end Registry
end EntityMapping
