import EntityMapping.Proofs.Derivation.FirstPass
import EntityMapping.Proofs.Parallel

/-! # Which collections an entity gets

The index answers with the foreign keys of the schema that lead to a name, in their order. From
them an entity with an identifier gets one collection for each key that is not left out, and
nothing that is read from the owners of the keys is changed by collections.
-/
namespace EntityMapping
open Column

variable {c : Convention} {s : Settings} {schema : Schema}

/-- Whether the target of a key has the given name as an entity. -/
def leadsTo (c : Convention) (s : Settings) (n : Name) (f : ForeignKey) : Bool :=
  match entityName c s f.target with
  | .ok target => target.same n
  | .error _ => false

theorem leadsTo_of_entityName {f : ForeignKey} {target n : Name}
    (h : entityName c s f.target = .ok target) : leadsTo c s n f = target.same n := by
  simp [leadsTo, h]

theorem leadingTo_foldlM {fs : List ForeignKey} {x y : ReferenceIndex}
    (h : fs.foldlM (fun x f => do pure (x.add (← (← entityName c s f.target).asKey) f)) x =
      (.ok y : Answer ReferenceIndex)) (n : Name) :
    y.leadingTo n = x.leadingTo n ++ fs.filter (leadsTo c s n) := by
  induction fs generalizing x with
  | nil =>
    obtain rfl : x = y := Except.ok.inj h
    simp
  | cons f fs ih =>
    rw [List.foldlM_cons] at h
    obtain ⟨x₁, hx, h⟩ := Answer.bind_eq_ok.1 h
    simp only [Answer.bind_eq_ok, Document.asKey_eq_ok, Answer.pure_eq_ok] at hx
    obtain ⟨target, ht, _, ⟨_, rfl⟩, rfl⟩ := hx
    rw [ih h, ReferenceIndex.leadingTo_add, List.append_assoc, List.filter_cons,
      leadsTo_of_entityName ht]
    split <;> simp

theorem foldlM_isOk_iff {fs : List ForeignKey} {x : ReferenceIndex} :
    (∃ y, fs.foldlM (fun x f => do pure (x.add (← (← entityName c s f.target).asKey) f)) x =
      (.ok y : Answer ReferenceIndex)) ↔
      ∀ f ∈ fs, ∃ n, entityName c s f.target = .ok n ∧ n.isPlain := by
  induction fs generalizing x with
  | nil => exact iff_of_true ⟨x, rfl⟩ nofun
  | cons f fs ih =>
    simp only [List.foldlM_cons, Answer.bind_eq_ok, Document.asKey_eq_ok, Answer.pure_eq_ok,
      List.forall_mem_cons]
    constructor
    · rintro ⟨y, x₁, ⟨n, hn, _, ⟨hplain, _⟩, rfl⟩, hy⟩
      exact ⟨⟨n, hn, hplain⟩, ih.1 ⟨y, hy⟩⟩
    · rintro ⟨⟨n, hn, hplain⟩, hfs⟩
      obtain ⟨y, hy⟩ := (ih (x := x.add n f)).2 hfs
      exact ⟨y, _, ⟨n, hn, n, ⟨hplain, rfl⟩, rfl⟩, hy⟩

/-- There is an index when the entities that the keys within the schema lead to have names that can
be looked up. -/
theorem ReferenceIndex.ofSchema_isOk_iff : (∃ x, ReferenceIndex.ofSchema c s schema = .ok x) ↔
    ∀ f ∈ schema.foreignKeys, schema.hasTable f.target →
      ∃ n, entityName c s f.target = .ok n ∧ n.isPlain := by
  rw [ReferenceIndex.ofSchema, foldlM_isOk_iff]
  simp only [List.mem_filter, and_imp]

theorem leadingTo_ofSchema {x : ReferenceIndex} (h : ReferenceIndex.ofSchema c s schema = .ok x)
    (n : Name) : x.leadingTo n =
      (schema.foreignKeys.filter fun f => schema.hasTable f.target).filter (leadsTo c s n) := by
  have hf := leadingTo_foldlM h n
  rwa [ReferenceIndex.leadingTo_empty, List.nil_append] at hf

theorem mem_foreignKeys_of_leadingTo {x : ReferenceIndex} {n : Name} {f : ForeignKey}
    (hx : ReferenceIndex.ofSchema c s schema = .ok x) (hf : f ∈ x.leadingTo n) :
    f ∈ schema.foreignKeys := by
  rw [leadingTo_ofSchema hx, List.mem_filter, List.mem_filter] at hf
  exact hf.1.1

/-- The property is the collection of the owners of the key as the convention has it, under any
name. -/
structure Property.IsCollection (c : Convention) (owner : Entity) (f : ForeignKey)
    (p : Property) : Prop where
  leads : ∃ isInverse isLazy, c.isInverse f = .ok isInverse ∧ c.isLazy f = .ok isLazy ∧
    p.role = .collection { target := owner.name, key := some f, isLazy }
      { name := ((owner.referenceFor? f).map Property.name).getD .null, isInverse }
  columns_eq : p.columns = f.columns
  type_eq : p.type = owner.name

theorem Property.IsCollection.kind_eq {owner : Entity} {f : ForeignKey} {p : Property}
    (h : p.IsCollection c owner f) : p.kind = .collection := by
  obtain ⟨_, _, _, _, hr⟩ := h.leads
  rw [Property.kind, hr]
  rfl

theorem Property.IsCollection.foreignKey?_eq {owner : Entity} {f : ForeignKey} {p : Property}
    (h : p.IsCollection c owner f) : p.foreignKey? = some f := by
  obtain ⟨_, _, _, _, hr⟩ := h.leads
  rw [Property.foreignKey?, hr]
  rfl

theorem Property.IsCollection.named {owner : Entity} {f : ForeignKey} {p : Property}
    (h : p.IsCollection c owner f) (n : Name) : (p.named n).IsCollection c owner f :=
  ⟨h.leads, h.columns_eq, h.type_eq⟩

/-- The collection along a key before it is added to an entity: under the name that the convention
has for it. -/
def collectionSketch (c : Convention) (owner : Entity) (f : ForeignKey) : Answer Property := do
  let name ← c.collectionName f (owner.table.refersOnce f)
  let isInverse ← c.isInverse f
  let isLazy ← c.isLazy f
  pure {
    name
    role := .collection { target := owner.name, key := some f, isLazy }
      { name := ((owner.referenceFor? f).map Property.name).getD .null, isInverse }
    columns := f.columns
    type := owner.name }

theorem isCollection_of_sketch {owner : Entity} {f : ForeignKey} {q : Property}
    (h : collectionSketch c owner f = .ok q) : q.IsCollection c owner f := by
  simp only [collectionSketch, Answer.bind_eq_ok, Answer.pure_eq_ok] at h
  obtain ⟨_, _, isInverse, hi, isLazy, hl, rfl⟩ := h
  exact ⟨⟨isInverse, isLazy, hi, hl, rfl⟩, rfl, rfl⟩

theorem collectionProperty_eq_ok {e owner : Entity} {f : ForeignKey} {p : Property} :
    collectionProperty c e owner f = .ok p ↔ ∃ q, collectionSketch c owner f = .ok q ∧
      e.HasPlainNames ∧ q.name.isPlain ∧ p = q.named (Naming.fresh e.names q.name) := by
  simp only [collectionProperty, collectionSketch, Answer.bind_eq_ok, Answer.pure_eq_ok,
    Naming.freshName_eq_ok]
  constructor
  · rintro ⟨name, hname, _, ⟨he, hplain, rfl⟩, isInverse, hi, isLazy, hl, rfl⟩
    exact ⟨_, ⟨name, hname, isInverse, hi, isLazy, hl, rfl⟩, he, hplain, rfl⟩
  · rintro ⟨_, ⟨name, hname, isInverse, hi, isLazy, hl, rfl⟩, he, hplain, rfl⟩
    exact ⟨name, hname, _, ⟨he, hplain, rfl⟩, isInverse, hi, isLazy, hl, rfl⟩

namespace Entity

/-- Even a sealed entity takes a collection, under the name that is new to it. -/
theorem add_collectionProperty {e owner : Entity} {f : ForeignKey} {p : Property}
    (h : collectionProperty c e owner f = .ok p) : e.add p = .ok (e.extend [p]) := by
  obtain ⟨q, hq, _, _, hnamed⟩ := collectionProperty_eq_ok.1 h
  have hkind : p.kind = .collection := hnamed ▸ ((isCollection_of_sketch hq).named _).kind_eq
  have hfree : Naming.isTaken e.names p.name = false := by
    rw [hnamed]
    exact Naming.isTaken_fresh _ _
  exact add_eq_ok.2 ⟨fun _ => hkind, hfree, rfl⟩

theorem addCollection_eq_ok {e e' owner : Entity} {f : ForeignKey} {p : Property}
    {ws : List Warning} : addCollection c e owner f = ⟨.ok p, e', ws⟩ ↔
      collectionProperty c e owner f = .ok p ∧ e.add p = .ok e' ∧ ws = [] := by
  simp only [addCollection, Outcome.ask_eq_ok]
  constructor
  · rintro ⟨q, hq, h⟩
    cases ha : e.add q with
    | error r => simp [ha] at h
    | ok e₁ =>
      simp only [ha, Outcome.done_eq_ok] at h
      obtain ⟨rfl, rfl, rfl⟩ := h
      exact ⟨hq, ha, rfl⟩
  · rintro ⟨hp, ha, rfl⟩
    refine ⟨p, hp, ?_⟩
    rw [ha]
    exact Outcome.done_eq_ok.2 ⟨rfl, rfl, rfl⟩

def wanted (c : Convention) (fs : List ForeignKey) : List ForeignKey :=
  fs.filter fun f => c.skipsCollection f = .ok false

theorem wanted_cons_of_skipped {f : ForeignKey} {fs : List ForeignKey}
    (h : c.skipsCollection f = .ok true) : wanted c (f :: fs) = wanted c fs := by
  simp [wanted, h]

theorem wanted_cons_of_wanted {f : ForeignKey} {fs : List ForeignKey}
    (h : c.skipsCollection f = .ok false) : wanted c (f :: fs) = f :: wanted c fs := by
  simp [wanted, h]

/-- The property is the sketch of the collection along a key whose owner is known. -/
def IsSketched (c : Convention) (r : Registry) (f : ForeignKey) (q : Property) : Prop :=
  ∃ owner, r.ofTable? f.table = some owner ∧ collectionSketch c owner f = .ok q

/-- The collections along some keys can be had: every question about them is answered, and what they
are to be called can be looked up. -/
structure CanSketch (c : Convention) (r : Registry) (fs : List ForeignKey) : Prop where
  answered : ∀ f ∈ fs, ∃ isSkipped, c.skipsCollection f = .ok isSkipped
  sketched : ∀ f ∈ wanted c fs, ∃ q, IsSketched c r f q ∧ q.name.isPlain

theorem canSketch_nil {r : Registry} : CanSketch c r [] := ⟨nofun, nofun⟩

theorem canSketch_cons_of_skipped {r : Registry} {f : ForeignKey} {fs : List ForeignKey}
    (h : c.skipsCollection f = .ok true) : CanSketch c r (f :: fs) ↔ CanSketch c r fs := by
  constructor
  · rintro ⟨ha, hq⟩
    rw [wanted_cons_of_skipped h] at hq
    exact ⟨fun g hg => ha g (List.mem_cons_of_mem _ hg), hq⟩
  · rintro ⟨ha, hq⟩
    refine ⟨List.forall_mem_cons.2 ⟨⟨_, h⟩, ha⟩, ?_⟩
    rwa [wanted_cons_of_skipped h]

theorem canSketch_cons_of_wanted {r : Registry} {f : ForeignKey} {fs : List ForeignKey}
    (h : c.skipsCollection f = .ok false) : CanSketch c r (f :: fs) ↔
      (∃ q, IsSketched c r f q ∧ q.name.isPlain) ∧ CanSketch c r fs := by
  constructor
  · rintro ⟨ha, hq⟩
    rw [wanted_cons_of_wanted h, List.forall_mem_cons] at hq
    exact ⟨hq.1, fun g hg => ha g (List.mem_cons_of_mem _ hg), hq.2⟩
  · rintro ⟨hq, ha, hqs⟩
    refine ⟨List.forall_mem_cons.2 ⟨⟨_, h⟩, ha⟩, ?_⟩
    rw [wanted_cons_of_wanted h]
    exact List.forall_mem_cons.2 ⟨hq, hqs⟩

theorem IsSketched.unique {r : Registry} {f : ForeignKey} {p q : Property}
    (hp : IsSketched c r f p) (hq : IsSketched c r f q) : p = q := by
  obtain ⟨owner, ho, hp⟩ := hp
  obtain ⟨owner', ho', hq⟩ := hq
  obtain rfl : owner = owner' := Option.some.inj (ho.symm.trans ho')
  exact Except.ok.inj (hp.symm.trans hq)

theorem isSketched_rightUnique {r : Registry} : Relator.RightUnique (IsSketched c r) :=
  fun _ _ _ => IsSketched.unique

theorem addCollections_cons_of_skipped {r : Registry} {f : ForeignKey} {fs : List ForeignKey}
    {e : Entity} (h : c.skipsCollection f = .ok true) :
    addCollections c r (f :: fs) e = addCollections c r fs e := by
  simp [addCollections, h]

theorem addCollections_cons_eq_ok {r : Registry} {f : ForeignKey} {fs : List ForeignKey}
    {owner e e' : Entity} {ps : List Property} {ws : List Warning}
    (hskip : c.skipsCollection f = .ok false) (ho : r.ofTable? f.table = some owner) :
    addCollections c r (f :: fs) e = ⟨.ok ps, e', ws⟩ ↔
      ∃ p rest, collectionProperty c e owner f = .ok p ∧
        addCollections c r fs (e.extend [p]) = ⟨.ok rest, e', ws⟩ ∧ ps = p :: rest := by
  rw [addCollections, hskip, Outcome.ask_ok]
  simp only [Bool.false_eq_true, if_false, ho, Outcome.andThen_eq_ok, Outcome.map_eq_ok,
    addCollection_eq_ok]
  constructor
  · rintro ⟨p, e₁, _, us, ⟨hp, hadd, rfl⟩, ⟨rest, hrest, rfl⟩, rfl⟩
    obtain ⟨_, _, rfl⟩ := add_eq_ok.1 hadd
    exact ⟨p, rest, hp, hrest, rfl⟩
  · rintro ⟨p, rest, hp, hrest, rfl⟩
    exact ⟨p, e.extend [p], [], ws, ⟨hp, add_collectionProperty hp, rfl⟩, ⟨rest, hrest, rfl⟩, rfl⟩

/-- Each wanted key gets the collection that is sketched for it, in order, and nothing else can go
wrong than that a question is not answered or a name cannot be looked up. -/
theorem addCollections_eq_ok {r : Registry} {fs : List ForeignKey} {e e' : Entity}
    {ps : List Property} {ws : List Warning} (howned : ∀ f ∈ fs, (r.ofTable? f.table).isSome) :
    addCollections c r fs e = ⟨.ok ps, e', ws⟩ ↔
      CanSketch c r fs ∧ (wanted c fs ≠ [] → e.HasPlainNames) ∧ ∃ qs,
        List.Forall₂ (IsSketched c r) (wanted c fs) qs ∧ ps = Property.nameInOrder e.names qs ∧
        e' = e.extend ps ∧ ws = [] := by
  induction fs generalizing e ps with
  | nil =>
    simp only [addCollections, Outcome.done_eq_ok]
    constructor
    · rintro ⟨rfl, rfl, rfl⟩
      exact ⟨canSketch_nil, fun h => absurd rfl h, [], .nil, rfl, by simp, rfl⟩
    · rintro ⟨_, _, qs, hqs, rfl, rfl, rfl⟩
      obtain rfl : qs = [] := List.forall₂_nil_left_iff.1 hqs
      exact ⟨rfl, by simp, rfl⟩
  | cons f fs ih =>
    have hrest : ∀ g ∈ fs, (r.ofTable? g.table).isSome := fun g hg =>
      howned g (List.mem_cons_of_mem _ hg)
    obtain ⟨owner, ho⟩ := Option.isSome_iff_exists.1 (howned f List.mem_cons_self)
    rcases hs : c.skipsCollection f with fault | _ | _
    · refine iff_of_false ?_ fun h => ?_
      · rw [addCollections, hs]
        exact Outcome.refused_ne_ok
      · obtain ⟨_, ha⟩ := h.1.answered f List.mem_cons_self
        exact absurd (hs.symm.trans ha) (by simp)
    · rw [addCollections_cons_eq_ok hs ho, wanted_cons_of_wanted hs, canSketch_cons_of_wanted hs]
      constructor
      · rintro ⟨p, rest, hp, hr, rfl⟩
        obtain ⟨q, hq, he, hplain, rfl⟩ := collectionProperty_eq_ok.1 hp
        obtain ⟨hcan, _, qs, hqs, rfl, rfl, rfl⟩ := (ih hrest).1 hr
        refine ⟨⟨⟨q, ⟨owner, ho, hq⟩, hplain⟩, hcan⟩, fun _ => he, q :: qs,
          .cons ⟨owner, ho, hq⟩ hqs, ?_, by simp, rfl⟩
        rw [names_extend]
        rfl
      · rintro ⟨⟨⟨q, hq, hplain⟩, hcan⟩, he, _, hall, rfl, rfl, rfl⟩
        obtain ⟨q', qs, hq', hqs, rfl⟩ := List.forall₂_cons_left_iff.1 hall
        obtain rfl := hq.unique hq'
        obtain ⟨owner', ho', hq⟩ := hq
        obtain rfl : owner = owner' := Option.some.inj (ho.symm.trans ho')
        have he := he (List.cons_ne_nil _ _)
        refine ⟨_, _, collectionProperty_eq_ok.2 ⟨q, hq, he, hplain, rfl⟩,
          (ih hrest).2 ⟨hcan, fun _ => he.extend (Naming.fresh_isPlain hplain), _, hqs, rfl, ?_,
            rfl⟩, ?_⟩
        · rw [names_extend]
          simp [Property.nameInOrder]
        · rw [names_extend]
          rfl
    · rw [addCollections_cons_of_skipped hs, wanted_cons_of_skipped hs,
        canSketch_cons_of_skipped hs, ih hrest]

/-- Adding collections is refused only when a question is not answered. -/
theorem answer_addCollections_eq_error {r : Registry} {fs : List ForeignKey} {e : Entity}
    {refusal : Refusal} (h : (addCollections c r fs e).answer = .error refusal) :
    ∃ fault, refusal = .unanswered fault := by
  induction fs generalizing e with
  | nil => cases h
  | cons f fs ih =>
    rw [addCollections] at h
    rcases Outcome.answer_ask_eq_error.1 h with ⟨fault, _, hf⟩ | ⟨isSkipped, _, h⟩
    · exact ⟨fault, hf⟩
    split at h
    · exact ih h
    split at h
    · rcases Outcome.answer_warn_eq_error.1 h with ⟨fault, _, hf⟩ | ⟨_, h⟩
      · exact ⟨fault, hf⟩
      · exact ih h
    · rcases Outcome.answer_andThen_eq_error.1 h with h | ⟨_, _, h⟩
      · rcases Outcome.answer_ask_eq_error.1 h with ⟨fault, _, hf⟩ | ⟨p, hp, h⟩
        · exact ⟨fault, hf⟩
        · rw [add_collectionProperty hp] at h
          cases h
      · exact ih (Outcome.answer_map_eq_error.1 h)

end Entity
end EntityMapping
