import EntityMapping.Derivation.Reference
import EntityMapping.Proofs.Derivation.ColumnProperty

/-! # Which foreign keys become references

Whether a key is bound depends on the columns claimed before it and on nothing else that the
entity holds. The keys that are bound are therefore found by a walk over the keys alone, and the
step that adds references makes one reference for each of them.
-/
namespace EntityMapping
open Column

variable {c : Convention} {s : Settings} {schema : Schema}

theorem treatment_eq_ok {claims : Claims} {f : ForeignKey} {tr : Treatment} :
    treatment c s claims f = .ok tr ↔ ∃ skips, c.skipsReference f = .ok skips ∧
      tr = if skips then .skipped else if claims.hasAll f.columns then
        if s.basicComposites then .bound false else .claimed else .bound true := by
  simp only [treatment, Answer.bind_eq_ok]
  constructor
  · rintro ⟨skips, hs, h⟩
    refine ⟨skips, hs, ?_⟩
    split at h
    · rename_i hskip
      rw [if_pos hskip]
      exact (Answer.pure_eq_ok.1 h).symm
    · rename_i hskip
      rw [if_neg hskip]
      split at h
      · rename_i hall
        rw [if_pos hall]
        split at h <;> simp_all
      · rename_i hall
        rw [if_neg hall]
        exact (Answer.pure_eq_ok.1 h).symm
  · rintro ⟨skips, hs, rfl⟩
    refine ⟨skips, hs, ?_⟩
    split
    · rfl
    · split
      · split <;> rfl
      · rfl

/-- The property is a reference along the key as the convention has it, under any name. -/
structure Property.IsReference (c : Convention) (s : Settings) (f : ForeignKey) (mutable : Bool)
    (p : Property) : Prop where
  leads : ∃ target, entityName c s f.target = .ok target ∧
    p.role = .reference { target, key := some f } ∧ p.type = target
  columns_eq : p.columns = f.columns
  nullable_eq : p.nullable = .bool (f.columns.all fun col => col.nullable.truthy)
  mutable_eq : p.mutable = .bool mutable

theorem Property.IsReference.kind_eq {f : ForeignKey} {m : Bool} {p : Property}
    (h : p.IsReference c s f m) : p.kind = .reference := by
  obtain ⟨_, _, hr, _⟩ := h.leads
  rw [Property.kind, hr]
  rfl

theorem Property.IsReference.foreignKey?_eq {f : ForeignKey} {m : Bool} {p : Property}
    (h : p.IsReference c s f m) : p.foreignKey? = some f := by
  obtain ⟨_, _, hr, _⟩ := h.leads
  rw [Property.foreignKey?, hr]
  rfl

theorem Property.IsReference.named {f : ForeignKey} {m : Bool} {p : Property}
    (h : p.IsReference c s f m) (n : Name) : (p.named n).IsReference c s f m :=
  ⟨h.leads, h.columns_eq, h.nullable_eq, h.mutable_eq⟩

/-- The reference along a key of a table before it is added to an entity: under the name that the
convention has for it. -/
def referenceSketch (c : Convention) (s : Settings) (t : Table) (f : ForeignKey)
    (mutable : Bool) : Answer Property := do
  let name ← c.referenceName f (t.refersOnce f)
  let target ← entityName c s f.target
  pure {
    name
    role := .reference { target, key := some f }
    columns := f.columns
    type := target
    nullable := f.columns.all fun col => col.nullable.truthy
    mutable }

theorem isReference_of_sketch {t : Table} {f : ForeignKey} {m : Bool} {q : Property}
    (h : referenceSketch c s t f m = .ok q) : q.IsReference c s f m := by
  simp only [referenceSketch, Answer.bind_eq_ok, Answer.pure_eq_ok] at h
  obtain ⟨_, _, target, ht, rfl⟩ := h
  exact ⟨⟨target, ht, rfl, rfl⟩, rfl, rfl, rfl⟩

theorem referenceProperty_eq_ok {e : Entity} {f : ForeignKey} {m : Bool} {p : Property} :
    referenceProperty c s e f m = .ok p ↔ ∃ q, referenceSketch c s e.table f m = .ok q ∧
      e.HasPlainNames ∧ q.name.isPlain ∧ p = q.named (Naming.fresh e.names q.name) := by
  simp only [referenceProperty, referenceSketch, Answer.bind_eq_ok, Answer.pure_eq_ok,
    Naming.freshName_eq_ok]
  constructor
  · rintro ⟨name, hname, _, ⟨he, hplain, rfl⟩, target, ht, rfl⟩
    exact ⟨_, ⟨name, hname, target, ht, rfl⟩, he, hplain, rfl⟩
  · rintro ⟨_, ⟨name, hname, target, ht, rfl⟩, he, hplain, rfl⟩
    exact ⟨name, hname, _, ⟨he, hplain, rfl⟩, target, ht, rfl⟩

/-- The keys of a list that become references when some columns are claimed already, each with
whether the reference can be changed. -/
def boundKeys (c : Convention) (s : Settings) (schema : Schema) :
    Claims → List ForeignKey → Answer (List (ForeignKey × Bool))
  | _, [] => pure []
  | claims, f :: fs =>
    if schema.hasTable f.target then do
      match ← treatment c s claims f with
      | .skipped | .claimed => boundKeys c s schema claims fs
      | .bound mutable =>
        pure ((f, mutable) :: (← boundKeys c s schema (claims.insertAll f.columns) fs))
    else boundKeys c s schema claims fs

def keyedColumns (ks : List (ForeignKey × Bool)) : List Column := ks.flatMap fun k => k.1.columns

@[simp] theorem keyedColumns_nil : keyedColumns [] = [] := rfl

@[simp] theorem keyedColumns_cons (k : ForeignKey × Bool) (ks : List (ForeignKey × Bool)) :
    keyedColumns (k :: ks) = k.1.columns ++ keyedColumns ks := rfl

theorem Claims.insertAll_append (t : Claims) (cs ds : List Column) :
    t.insertAll (cs ++ ds) = (t.insertAll cs).insertAll ds := List.foldl_append

/-- What becomes of the first key depends on the claims, and the claims grow only if it is bound. -/
theorem boundKeys_cons_eq_ok {claims : Claims} {f : ForeignKey} {fs : List ForeignKey}
    {ks : List (ForeignKey × Bool)} :
    boundKeys c s schema claims (f :: fs) = .ok ks ↔
      (∃ m ls, schema.hasTable f.target = true ∧ treatment c s claims f = .ok (.bound m) ∧
        boundKeys c s schema (claims.insertAll f.columns) fs = .ok ls ∧ ks = (f, m) :: ls) ∨
      ((schema.hasTable f.target = true → ∃ tr, treatment c s claims f = .ok tr ∧
          (tr = .skipped ∨ tr = .claimed)) ∧ boundKeys c s schema claims fs = .ok ks) := by
  rw [boundKeys]
  cases schema.hasTable f.target with
  | false => simp
  | true =>
    simp only [if_true, Answer.bind_eq_ok]
    constructor
    · rintro ⟨tr, htr, h⟩
      cases tr with
      | skipped => exact .inr ⟨fun _ => ⟨_, htr, .inl rfl⟩, h⟩
      | claimed => exact .inr ⟨fun _ => ⟨_, htr, .inr rfl⟩, h⟩
      | bound m =>
        obtain ⟨ls, hls, hks⟩ := Answer.bind_eq_ok.1 h
        exact .inl ⟨m, ls, trivial, htr, hls, (Answer.pure_eq_ok.1 hks).symm⟩
    · rintro (⟨m, ls, _, htr, hls, rfl⟩ | ⟨htr, h⟩)
      · exact ⟨_, htr, Answer.bind_eq_ok.2 ⟨ls, hls, rfl⟩⟩
      · obtain ⟨tr, htr, rfl | rfl⟩ := htr trivial
        · exact ⟨_, htr, h⟩
        · exact ⟨_, htr, h⟩

namespace Draft

theorem addReference_eq_ok {d d' : Draft} {f : ForeignKey} {m : Bool} {p : Property}
    {ws : List Warning} : addReference c s d f m = ⟨.ok p, d', ws⟩ ↔
      referenceProperty c s d.entity f m = .ok p ∧ d.entity.add p = .ok d'.entity ∧
        d'.claims = d.claims.insertAll f.columns ∧ ws = [] := by
  simp only [addReference, Outcome.ask_eq_ok]
  constructor
  · rintro ⟨q, hq, h⟩
    cases ha : d.entity.add q with
    | error r => simp [ha] at h
    | ok e =>
      simp only [ha, Outcome.done_eq_ok] at h
      obtain ⟨rfl, rfl, rfl⟩ := h
      exact ⟨hq, ha, rfl, rfl⟩
  · rintro ⟨hp, ha, hc, rfl⟩
    rcases d' with ⟨e, claims⟩
    cases hc
    refine ⟨p, hp, ?_⟩
    rw [ha]
    exact Outcome.done_eq_ok.2 ⟨rfl, rfl, rfl⟩

/-- Each bound key gets the reference that is sketched for it, in order. -/
theorem addReferences_sketched {fs : List ForeignKey} {d d' : Draft} {ps : List Property}
    {ws : List Warning} (h : addReferences c s schema fs d = ⟨.ok ps, d', ws⟩) :
    ∃ ks qs, boundKeys c s schema d.claims fs = .ok ks ∧
      List.Forall₂ (fun k q => referenceSketch c s d.entity.table k.1 k.2 = .ok q) ks qs ∧
      ps = Property.nameInOrder d.entity.names qs ∧ d'.entity = d.entity.extend ps ∧
      d'.claims = d.claims.insertAll (keyedColumns ks) := by
  induction fs generalizing d ps ws with
  | nil =>
    obtain ⟨rfl, rfl, _⟩ := Outcome.done_eq_ok.1 h
    exact ⟨[], [], rfl, .nil, rfl, by simp, rfl⟩
  | cons f fs ih =>
    rw [addReferences] at h
    split at h
    · rename_i hin
      obtain ⟨tr, htr, h⟩ := Outcome.ask_eq_ok.1 h
      cases tr with
      | skipped =>
        obtain ⟨ks, qs, hks, hrest⟩ := ih h
        exact ⟨ks, qs, boundKeys_cons_eq_ok.2 (.inr ⟨fun _ => ⟨_, htr, .inl rfl⟩, hks⟩), hrest⟩
      | claimed =>
        obtain ⟨ks, qs, hks, hrest⟩ := ih h
        exact ⟨ks, qs, boundKeys_cons_eq_ok.2 (.inr ⟨fun _ => ⟨_, htr, .inr rfl⟩, hks⟩), hrest⟩
      | bound m =>
        simp only [Outcome.andThen_eq_ok, Outcome.map_eq_ok] at h
        obtain ⟨p, d₁, _, us, hp, ⟨rest, hr, rfl⟩, _⟩ := h
        obtain ⟨hprop, hadd, hclaims, _⟩ := addReference_eq_ok.1 hp
        obtain ⟨q, hq, _, _, hpq⟩ := referenceProperty_eq_ok.1 hprop
        obtain ⟨_, _, hext⟩ := Entity.add_eq_ok.1 hadd
        obtain ⟨ks, qs, hks, hqs, rfl, he, hc⟩ := ih hr
        rw [hclaims] at hks hc
        rw [hext] at hqs he
        refine ⟨(f, m) :: ks, q :: qs, boundKeys_cons_eq_ok.2 (.inl ⟨m, ks, hin, htr, hks, rfl⟩),
          .cons hq hqs, ?_, ?_, ?_⟩
        · rw [hext, Entity.names_extend, hpq]
          rfl
        · rw [he, Entity.extend_extend, hext]
          rfl
        · rw [hc, keyedColumns_cons, Claims.insertAll_append]
    · rename_i hout
      obtain ⟨_, us, h, _⟩ := Outcome.warn_eq_ok.1 h
      obtain ⟨ks, qs, hks, hrest⟩ := ih h
      exact ⟨ks, qs, boundKeys_cons_eq_ok.2 (.inr ⟨fun hin => absurd hin hout, hks⟩), hrest⟩

theorem addReferences_eq_ok {fs : List ForeignKey} {d d' : Draft} {ps : List Property}
    {ws : List Warning} (h : addReferences c s schema fs d = ⟨.ok ps, d', ws⟩) :
    ∃ ks, boundKeys c s schema d.claims fs = .ok ks ∧
      List.Forall₂ (fun k p => p.IsReference c s k.1 k.2) ks ps ∧
      (ps.map fun p => p.name.key).Nodup ∧
      d'.entity = d.entity.extend ps ∧ d'.claims = d.claims.insertAll (keyedColumns ks) := by
  obtain ⟨ks, qs, hks, hqs, rfl, he, hc⟩ := addReferences_sketched h
  refine ⟨ks, hks, ?_, Property.nameInOrder_names_nodup, he, hc⟩
  refine hqs.trans Property.nameInOrder_isNamedFrom ?_
  rintro k q p hq ⟨hp, _⟩
  rw [hp]
  exact (isReference_of_sketch hq).named _

end Draft
end EntityMapping
