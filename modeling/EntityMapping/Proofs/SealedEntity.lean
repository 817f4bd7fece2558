import EntityMapping.Proofs.Derivation.DistinctNames
import EntityMapping.Proofs.Relational.Typed

/-! # A sealed entity takes collections only

Properties are added to an entity, and it is sealed, in any order and as often as one likes. An
addition that is refused changes nothing, one that is not appends its property, and the names in use
stay distinct. Once the entity is sealed, only its collections grow.
-/
namespace EntityMapping
namespace Entity

inductive Edit
  | add (p : Property)
  | freeze
deriving DecidableEq

def edit (e : Entity) : Edit → Outcome Entity Unit
  | .add p =>
    match e.add p with
    | .ok e' => .done () e'
    | .error refusal => .refused refusal e
  | .freeze => .done () e.freeze

def editAll (e : Entity) (edits : List Edit) : Entity :=
  edits.foldl (fun e a => (e.edit a).state) e

/-- The properties that a sealed entity does not get. -/
def fixed (e : Entity) : List Property := e.properties.filter fun p => p.kind ≠ .collection

variable {d e e' : Entity} {p : Property} {a : Edit} {r : Refusal} {edits : List Edit}

theorem editAll_cons (e : Entity) (a : Edit) (edits : List Edit) :
    e.editAll (a :: edits) = (e.edit a).state.editAll edits := rfl

theorem editAll_append (e : Entity) (before later : List Edit) :
    e.editAll (before ++ later) = (e.editAll before).editAll later :=
  List.foldl_append

def LetsThrough (e : Entity) (p : Property) : Prop := e.isSealed = true → p.kind = .collection

/-- A property is appended, or it is refused because of the seal, or else because of its name. -/
theorem edit_add_cases (e : Entity) (p : Property) :
    (e.LetsThrough p ∧ Naming.isTaken e.names p.name = false ∧
      e.edit (.add p) = .done () (e.extend [p])) ∨
    (¬ e.LetsThrough p ∧ e.edit (.add p) = .refused (.sealedEntity e.name p.kind p.name) e) ∨
    (e.LetsThrough p ∧ Naming.isTaken e.names p.name = true ∧
      e.edit (.add p) = .refused (.nameInUse e.name p.name) e) := by
  by_cases hkind : e.LetsThrough p
  · have hopen : ¬ (e.isSealed && p.kind ≠ .collection) := by
      simpa [LetsThrough] using hkind
    cases hname : Naming.isTaken e.names p.name with
    | false =>
      refine .inl ⟨hkind, rfl, ?_⟩
      rw [edit, add_eq_ok.2 ⟨hkind, hname, rfl⟩]
    | true =>
      refine .inr (.inr ⟨hkind, rfl, ?_⟩)
      rw [edit, add, if_neg hopen, if_pos hname]
  · have hclosed : e.isSealed && p.kind ≠ .collection := by
      simpa [LetsThrough] using hkind
    refine .inr (.inl ⟨hkind, ?_⟩)
    rw [edit, add, if_pos hclosed]

theorem answer_edit_add_eq_ok : (e.edit (.add p)).answer = .ok () ↔
    e.LetsThrough p ∧ Naming.isTaken e.names p.name = false := by
  rcases edit_add_cases e p with ⟨hkind, hfree, h⟩ | ⟨hkind, h⟩ | ⟨_, htaken, h⟩ <;> rw [h]
  · exact iff_of_true rfl ⟨hkind, hfree⟩
  · exact iff_of_false nofun fun h => hkind h.1
  · exact iff_of_false nofun fun h => by simp [htaken] at h

theorem answer_edit_add_eq_error : (e.edit (.add p)).answer = .error r ↔
    (¬ e.LetsThrough p ∧ r = .sealedEntity e.name p.kind p.name) ∨
      (e.LetsThrough p ∧ Naming.isTaken e.names p.name = true ∧ r = .nameInUse e.name p.name) := by
  rcases edit_add_cases e p with ⟨hkind, hfree, h⟩ | ⟨hkind, h⟩ | ⟨hkind, htaken, h⟩ <;> rw [h]
  · refine iff_of_false nofun ?_
    rintro (⟨hnot, _⟩ | ⟨_, htaken, _⟩)
    · exact hnot hkind
    · simp [hfree] at htaken
  · rw [Outcome.answer_refused, Except.error.injEq]
    constructor
    · rintro rfl
      exact .inl ⟨hkind, rfl⟩
    · rintro (⟨_, rfl⟩ | ⟨hthrough, _⟩)
      · rfl
      · exact absurd hthrough hkind
  · rw [Outcome.answer_refused, Except.error.injEq]
    constructor
    · rintro rfl
      exact .inr ⟨hkind, htaken, rfl⟩
    · rintro (⟨hnot, _⟩ | ⟨_, _, rfl⟩)
      · exact absurd hkind hnot
      · rfl

theorem state_edit_of_ok (h : (e.edit (.add p)).answer = .ok ()) :
    (e.edit (.add p)).state = e.extend [p] := by
  rcases edit_add_cases e p with ⟨_, _, hedit⟩ | ⟨_, hedit⟩ | ⟨_, _, hedit⟩ <;> rw [hedit] at h ⊢
  · rfl
  · cases h
  · cases h

theorem state_edit_of_error (h : (e.edit (.add p)).answer = .error r) :
    (e.edit (.add p)).state = e := by
  rcases edit_add_cases e p with ⟨_, _, hedit⟩ | ⟨_, hedit⟩ | ⟨_, _, hedit⟩ <;> rw [hedit] at h ⊢
  · cases h
  · rfl
  · rfl

/-- The entity has become another one with further properties, behind a seal only collections. -/
structure Becomes (d e : Entity) : Prop where
  grown : ∃ ps, (d.isSealed = true → ∀ p ∈ ps, p.kind = .collection) ∧
    e = { d.extend ps with isSealed := e.isSealed }
  sealed_kept : d.isSealed = true → e.isSealed = true
  distinct_kept : d.HasDistinctNames → e.HasDistinctNames

theorem becomes_refl (e : Entity) : e.Becomes e :=
  ⟨⟨[], fun _ => nofun, by rw [extend_nil]⟩, id, id⟩

theorem Becomes.trans (h : d.Becomes e) (h' : e.Becomes e') : d.Becomes e' where
  grown := by
    obtain ⟨ps, hps, he⟩ := h.grown
    obtain ⟨qs, hqs, he'⟩ := h'.grown
    refine ⟨ps ++ qs, fun hd p hp => ?_, ?_⟩
    · rcases List.mem_append.1 hp with hp | hp
      · exact hps hd p hp
      · exact hqs (h.sealed_kept hd) p hp
    · rw [he', he]
      simp [extend]
  sealed_kept := fun hd => h'.sealed_kept (h.sealed_kept hd)
  distinct_kept := fun hd => h'.distinct_kept (h.distinct_kept hd)

theorem becomes_extend (hkind : e.LetsThrough p) (hfree : Naming.isTaken e.names p.name = false) :
    e.Becomes (e.extend [p]) where
  grown := by
    refine ⟨[p], fun hs q hq => ?_, rfl⟩
    rw [List.mem_singleton.1 hq]
    exact hkind hs
  sealed_kept := id
  distinct_kept := fun hd => hd.add (add_eq_ok.2 ⟨hkind, hfree, rfl⟩)

theorem becomes_edit (e : Entity) (a : Edit) : e.Becomes (e.edit a).state := by
  cases a with
  | freeze =>
    exact ⟨⟨[], fun _ => nofun, by rw [extend_nil]; rfl⟩, fun _ => rfl, HasDistinctNames.freeze⟩
  | add p =>
    rcases edit_add_cases e p with ⟨hkind, hfree, h⟩ | ⟨_, h⟩ | ⟨_, _, h⟩ <;> rw [h]
    · exact becomes_extend hkind hfree
    · exact e.becomes_refl
    · exact e.becomes_refl

theorem becomes_editAll (e : Entity) (edits : List Edit) : e.Becomes (e.editAll edits) := by
  induction edits generalizing e with
  | nil => exact e.becomes_refl
  | cons a edits ih => exact (becomes_edit e a).trans (ih _)

theorem Becomes.fixed_eq (h : d.Becomes e) (hd : d.isSealed = true) : e.fixed = d.fixed := by
  obtain ⟨ps, hps, he⟩ := h.grown
  have hnone : (ps.filter fun p => p.kind ≠ .collection) = [] :=
    List.filter_eq_nil_iff.2 fun p hp => by simp [hps hd p hp]
  rw [fixed, he, extend, List.filter_append, hnone, List.append_nil, fixed]

theorem isSealed_edit (e : Entity) (a : Edit) :
    (e.edit a).state.isSealed = true ↔ e.isSealed = true ∨ a = .freeze := by
  cases a with
  | freeze => exact iff_of_true rfl (.inr rfl)
  | add p =>
    rw [or_iff_left (by simp)]
    rcases edit_add_cases e p with ⟨_, _, h⟩ | ⟨_, h⟩ | ⟨_, _, h⟩ <;> rw [h] <;> rfl

theorem isSealed_editAll (e : Entity) (edits : List Edit) :
    (e.editAll edits).isSealed = true ↔ e.isSealed = true ∨ .freeze ∈ edits := by
  induction edits generalizing e with
  | nil => simp [editAll]
  | cons a edits ih =>
    rw [editAll_cons, ih, isSealed_edit, List.mem_cons, or_assoc, @eq_comm _ Edit.freeze]

/-- Whether a property is added is up to the seal and its name alone, the seal first. A property
that is refused leaves the entity as it is. -/
structure Guards (e : Entity) : Prop where
  added_iff : ∀ p, (e.edit (.add p)).answer = .ok () ↔
    (p.kind = .collection ∨ ¬ e.isSealed) ∧ Naming.isTaken e.names p.name = false
  added : ∀ p, (e.edit (.add p)).answer = .ok () → (e.edit (.add p)).state = e.extend [p]
  refused_iff : ∀ p r, (e.edit (.add p)).answer = .error r ↔
    (¬ e.LetsThrough p ∧ r = .sealedEntity e.name p.kind p.name) ∨
      (e.LetsThrough p ∧ Naming.isTaken e.names p.name = true ∧ r = .nameInUse e.name p.name)
  unchanged : ∀ p r, (e.edit (.add p)).answer = .error r → (e.edit (.add p)).state = e

theorem guards (e : Entity) : e.Guards where
  added_iff := fun p => by rw [answer_edit_add_eq_ok, LetsThrough, imp_iff_not_or, or_comm]
  added := fun _ => state_edit_of_ok
  refused_iff := fun _ _ => answer_edit_add_eq_error
  unchanged := fun _ _ => state_edit_of_error

/-- What an entity is after some edits, and what later ones leave of it. -/
structure StaysInOrder (e : Entity) (before later : List Edit) : Prop where
  names_distinct : (e.editAll before).HasDistinctNames
  guards : (e.editAll before).Guards
  isSealed_iff : (e.editAll before).isSealed = true ↔ e.isSealed = true ∨ .freeze ∈ before
  grown : ∃ ps, e.editAll (before ++ later) =
    { (e.editAll before).extend ps with isSealed := (e.editAll (before ++ later)).isSealed }
  frozen : (e.editAll before).isSealed = true →
    (e.editAll (before ++ later)).fixed = (e.editAll before).fixed

/-- However an entity with distinct names is edited, its names stay distinct, its properties stay
where they are, and behind the seal only collections are added. -/
theorem staysInOrder_of_hasDistinctNames {e : Entity} (h : e.HasDistinctNames)
    (before later : List Edit) : e.StaysInOrder before later := by
  have hlater := becomes_editAll (e.editAll before) later
  rw [← editAll_append] at hlater
  constructor
  case names_distinct => exact (becomes_editAll e before).distinct_kept h
  case guards => exact (e.editAll before).guards
  case isSealed_iff => exact isSealed_editAll e before
  case grown =>
    obtain ⟨ps, _, hps⟩ := hlater.grown
    exact ⟨ps, hps⟩
  case frozen => exact hlater.fixed_eq

def withComponent : Entity where
  name := "lines"
  shortName := "lines"
  table := .orders
  tableId := { name := "lines" }
  identifier := { kind := .embedded, properties := [{ name := "order" }], name := "pk" }

/-- The name of the component is taken, but not those of its parts. Of the properties that come
after the seal, the one that is not a collection is refused, and so is one under a name in use. -/
theorem staysInOrder_withComponent : withComponent.HasDistinctNames ∧
    withComponent.StaysInOrder
      [.add { name := "pk" }, .add { name := "order" }, .freeze, .add { name := "late" }]
      [.add { name := "items", role := .collection {} {} },
        .add { name := "order", role := .collection {} {} }] ∧
    (withComponent.editAll
      [.add { name := "pk" }, .add { name := "order" }, .freeze, .add { name := "late" },
        .add { name := "items", role := .collection {} {} },
        .add { name := "order", role := .collection {} {} }]).names =
      ["pk", "order", "items"] := by
  have hdistinct : withComponent.HasDistinctNames := by
    change (withComponent.names.map Document.key).Nodup
    decide
  exact ⟨hdistinct, staysInOrder_of_hasDistinctNames hdistinct _ _, by decide⟩

end Entity
end EntityMapping
