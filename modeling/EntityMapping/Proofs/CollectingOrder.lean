import EntityMapping.Proofs.Derivation.CollectStep
import EntityMapping.Proofs.FirstFailure

/-! # The order of the second pass

The second pass may go through the tables in any order. A step changes one entity, and another step
reads of it what no step changes; so two steps over different entities may change places, and with
them the steps of a whole run.
-/
namespace EntityMapping

variable {c : Convention} {s : Settings} {schema : Schema} {x : ReferenceIndex}

namespace Registry
variable {a b : TableBinding} {bs bs' : List TableBinding} {q r r' r₁ r₂ : Registry}

theorem name_key_of_endsAs (hr : r.IsFilled) {n : Name} {e e' : Entity} (hget : r.get? n = some e)
    (he : Entity.EndsAs c x r e e') : e'.name.key = n.key := by
  obtain ⟨hmem, hkey⟩ := mem_of_get?_eq_some hget
  obtain ⟨hgrows, _⟩ := he.growsTo (hr.isSealed e hmem) (hr.distinct e hmem)
  rw [hgrows.name_eq, hkey]

/-- Two steps over different entities may change places. -/
theorem Finishes.comm (hr : r.IsFilled) (hab : a.IsApartFrom b) (ha : Finishes c x a r r₁)
    (hb : Finishes c x b r₁ r₂) : ∃ r₃, Finishes c x b r r₃ ∧ Finishes c x a r₃ r₂ := by
  have hr₁ : r₁.IsFilled := (ha.growsTo hr).isFilled hr
  have hagree₁ : r.AgreesOnOwners r₁ := (ha.growsTo hr).agreesOnOwners
  obtain ⟨hstage, d, d', hget, hends, rfl⟩ := (finishes_iff hr.sound).1 ha
  obtain ⟨hstage', e, e', hget', hends', rfl⟩ := (finishes_iff hr₁.sound).1 hb
  obtain ⟨m, hm, hgetm⟩ := Option.bind_eq_some_iff.1 hget
  obtain ⟨n, hn, hgetn⟩ := Option.bind_eq_some_iff.1 hget'
  have hd : d'.name.key = m.key := name_key_of_endsAs hr hgetm hends
  have he : e'.name.key = n.key := name_key_of_endsAs hr₁ hgetn hends'
  have hmn : m.key ≠ n.key := fun h => hab m hm n hn (Document.same_iff.2 h)
  -- Neither step changes what the other one finds or reads.
  rw [get?_update_of_ne (by rw [Document.same_iff, hd]; exact hmn)] at hgetn
  have hends₂ : Entity.EndsAs c x r e e' := (Entity.endsAs_congr hagree₁).2 hends'
  have hb₃ : Finishes c x b r (r.update e') := by
    refine (finishes_iff hr.sound).2 ⟨hstage', e, e', ?_, hends₂, rfl⟩
    exact Option.bind_eq_some_iff.2 ⟨n, hn, hgetn⟩
  have hr₃ : (r.update e').IsFilled := (hb₃.growsTo hr).isFilled hr
  refine ⟨r.update e', hb₃, (finishes_iff hr₃.sound).2 ⟨hstage, d, d', ?_, ?_, ?_⟩⟩
  · refine Option.bind_eq_some_iff.2 ⟨m, hm, ?_⟩
    rw [get?_update_of_ne (by rw [Document.same_iff, he]; exact hmn.symm)]
    exact hgetm
  · exact (Entity.endsAs_congr (hb₃.growsTo hr).agreesOnOwners).1 hends
  · exact update_comm (by rw [Document.same_iff, hd, he]; exact hmn)

def FinishesAll (c : Convention) (x : ReferenceIndex) (bs : List TableBinding)
    (r r' : Registry) : Prop :=
  ∃ as ws, collectAll c x bs r = ⟨.ok as, r', ws⟩

theorem finishesAll_cons : FinishesAll c x (b :: bs) r r' ↔
    ∃ r₁, Finishes c x b r r₁ ∧ FinishesAll c x bs r₁ r' := by
  simp only [FinishesAll, Finishes, collectAll, Outcome.andThen_eq_ok, Outcome.map_eq_ok]
  constructor
  · rintro ⟨_, _, a, r₁, ws, us, ha, ⟨as, has, _⟩, _⟩
    exact ⟨r₁, ⟨a, ws, ha⟩, as, us, has⟩
  · rintro ⟨r₁, ⟨a, ws, ha⟩, as, us, has⟩
    exact ⟨_, _, a, r₁, ws, us, ha, ⟨as, has, rfl⟩, rfl⟩

theorem finished_of_collectAll {as : List TableBinding} {ws : List Warning}
    (h : collectAll c x bs r = ⟨.ok as, r', ws⟩) : as = bs.map TableBinding.finished := by
  induction bs generalizing r as ws with
  | nil => exact (Outcome.done_eq_ok.1 h).1.symm
  | cons b bs ih =>
    simp only [collectAll, Outcome.andThen_eq_ok, Outcome.map_eq_ok] at h
    obtain ⟨a, r₁, _, _, ha, ⟨as, has, rfl⟩, _⟩ := h
    rw [List.map_cons, ih has, (finished_of_collect ha).2]

/-- Steps over different entities may be taken in any order. -/
theorem FinishesAll.perm (hp : bs.Perm bs') (hr : r.IsFilled)
    (hapart : bs.Pairwise TableBinding.IsApartFrom) (h : FinishesAll c x bs r r') :
    FinishesAll c x bs' r r' := by
  induction hp generalizing r with
  | nil => exact h
  | cons b _ ih =>
    obtain ⟨r₁, hb, hrest⟩ := finishesAll_cons.1 h
    have hr₁ : r₁.IsFilled := (hb.growsTo hr).isFilled hr
    exact finishesAll_cons.2 ⟨r₁, hb, ih hr₁ (List.pairwise_cons.1 hapart).2 hrest⟩
  | swap a b bs =>
    obtain ⟨r₁, hb, h⟩ := finishesAll_cons.1 h
    obtain ⟨r₂, ha, hrest⟩ := finishesAll_cons.1 h
    have hba : b.IsApartFrom a := (List.pairwise_cons.1 hapart).1 a List.mem_cons_self
    obtain ⟨r₃, ha₃, hb₃⟩ := hb.comm hr hba ha
    exact finishesAll_cons.2 ⟨r₃, ha₃, finishesAll_cons.2 ⟨r₂, hb₃, hrest⟩⟩
  | trans hp _ ih ih' =>
    exact ih' hr (hapart.perm hp TableBinding.IsApartFrom.symm) (ih hr hapart h)

theorem isApartFrom_of_bindAll {ws : List Warning}
    (h : bindAll c s schema schema.tables {} = ⟨.ok bs, q, ws⟩) :
    bs.Pairwise TableBinding.IsApartFrom := by
  obtain ⟨es, _, rfl, hent, hsound, _⟩ := bindAll_tables_eq_ok h
  have hnames : (es.map fun e => e.name.key).Nodup := by
    have hn := hsound.names_nodup
    rwa [nameKeys, hent, List.map_map] at hn
  rw [List.pairwise_map]
  refine (List.pairwise_map.1 hnames).imp fun {d e} hde => ?_
  rintro _ ⟨⟩ _ ⟨⟩ hsame
  exact hde (Document.same_iff.1 hsame)

/-- Behind a first pass that goes through, the second pass may take the tables in any order. It goes
through for all orders or for none, and for all of them over a typed schema and under a total
convention; it leaves the same registry behind and every table finished. -/
theorem collectAll_perm {ws : List Warning}
    (h : bindAll c s schema schema.tables {} = ⟨.ok bs, q, ws⟩) (hp : bs.Perm bs') :
    (c.IsTotal → schema.IsTyped → ReferenceIndex.ofSchema c s schema = .ok x →
      ∃ as r us, collectAll c x bs q = ⟨.ok as, r, us⟩) ∧
    (∀ r, (∃ as us, collectAll c x bs q = ⟨.ok as, r, us⟩) ↔
      ∃ as us, collectAll c x bs' q = ⟨.ok as, r, us⟩) ∧
    ∀ as r us as' r' us', collectAll c x bs q = ⟨.ok as, r, us⟩ →
      collectAll c x bs' q = ⟨.ok as', r', us'⟩ →
      as = bs.map TableBinding.finished ∧ as' = bs'.map TableBinding.finished ∧ r' = r := by
  have hq : q.IsFilled := (isFilled_of_bindAll h).1
  have hapart := isApartFrom_of_bindAll h
  have hiff : ∀ r, FinishesAll c x bs q r ↔ FinishesAll c x bs' q r := fun r =>
    ⟨.perm hp hq hapart, .perm hp.symm hq (hapart.perm hp TableBinding.IsApartFrom.symm)⟩
  refine ⟨fun hc hs hx => ?_, hiff, fun as r us as' r' us' ha ha' => ?_⟩
  · obtain ⟨as, r, us, ha, _⟩ := collectAll_bound_reaches hc hs hx h
    exact ⟨as, r, us, ha⟩
  · refine ⟨finished_of_collectAll ha, finished_of_collectAll ha', ?_⟩
    obtain ⟨_, _, hsame⟩ := (hiff r).1 ⟨as, us, ha⟩
    rw [hsame] at ha'
    cases ha'
    rfl

end Registry

/-- Departments have managers, and employees have departments and bosses. -/
def Table.departments : Table where
  id := { name := "departments" }
  columns := [{ name := "id" }, { name := "manager" }]
  primaryKey := some .ofId
  foreignKeys := [{
    table := { name := "departments" }
    target := { name := "employees" }
    columns := [{ name := "manager" }]
    columns_ne := by simp
    paired := .inl rfl }]
  comment := .null
  names_plain := by decide
  names_nodup := by decide
  key_columns := by decide
  foreign_owner := by decide
  foreign_columns := by decide

def ForeignKey.ofEmployee (column target : Name) : ForeignKey where
  table := { name := "employees" }
  target := { name := target }
  columns := [{ name := column }]
  columns_ne := by simp
  paired := .inl rfl

def Table.employees : Table where
  id := { name := "employees" }
  columns := [{ name := "id" }, { name := "department" }, { name := "boss" }]
  primaryKey := some .ofId
  foreignKeys := [.ofEmployee "department" "departments", .ofEmployee "boss" "employees"]
  comment := .null
  names_plain := by decide
  names_nodup := by decide
  key_columns := by decide
  foreign_owner := by decide
  foreign_columns := by decide

def Schema.staff : Schema where
  tables := [.departments, .employees]
  ids_plain := by decide
  ids_nodup := by decide
  targets_plain := by decide
  targets_known := by decide

/-- The collections of the staff come to the same in both orders. -/
theorem Registry.collectAll_perm_staff :
    ∃ x bs q ws, ReferenceIndex.ofSchema .plain {} .staff = .ok x ∧
      bindAll .plain {} .staff Schema.staff.tables {} = ⟨.ok bs, q, ws⟩ ∧
      bs.Perm bs.reverse ∧ bs.length = 2 ∧
      ∃ r us us', collectAll .plain x bs q = ⟨.ok (bs.map .finished), r, us⟩ ∧
        collectAll .plain x bs.reverse q = ⟨.ok (bs.reverse.map .finished), r, us'⟩ := by
  have htyped : Schema.staff.IsTyped := by decide
  have hok : (bindAll .plain {} .staff Schema.staff.tables {}).answer.toOption.any fun bs =>
      bs.length = 2 := by
    decide +kernel
  obtain ⟨x, hx⟩ := ReferenceIndex.ofSchema_isOk (s := {}) Convention.plain_isTotal htyped
  obtain ⟨bs, hbs, hlength⟩ := exists_ok_of_toOption_any hok
  rcases ho : bindAll .plain {} .staff Schema.staff.tables {} with ⟨answer, q, ws⟩
  obtain rfl : answer = .ok bs := by rw [← hbs, ho]
  have hp : bs.Perm bs.reverse := bs.reverse_perm.symm
  obtain ⟨htotal, hiff, hsame⟩ := collectAll_perm ho hp
  obtain ⟨as, r, us, ha⟩ := htotal Convention.plain_isTotal htyped hx
  obtain ⟨as', us', ha'⟩ := (hiff r).1 ⟨as, us, ha⟩
  obtain ⟨rfl, rfl, _⟩ := hsame _ _ _ _ _ _ ha ha'
  exact ⟨x, bs, q, ws, hx, rfl, hp, of_decide_eq_true hlength, r, us, us', ha, ha'⟩

end EntityMapping
