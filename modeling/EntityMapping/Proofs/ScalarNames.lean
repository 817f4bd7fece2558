import EntityMapping.Convention.Basic
import EntityMapping.Proofs.ReferenceDecision
import EntityMapping.Proofs.TableOrder

/-! # The names of scalars

The scalars of an entity come last, and two of them never have the same name from the convention.
Therefore a scalar keeps that name unless the identifier, the version or a reference has it, or an
earlier scalar was given it as a numbered name. A scalar that gives way takes the least number that
is free by then.
-/
namespace EntityMapping
open Column

variable {c : Convention} {s : Settings} {schema : Schema} {id : TableId}

/-- The name is kept unless it clashes; a name that does gets the least number, from one on, that is
free. -/
def Naming.IsNumberedIf (clashes : Prop) (taken : List Name) (base n : Name) : Prop :=
  (¬ clashes → n = base) ∧ (clashes → ∃ k, 0 < k ∧ n = numbered base k ∧
    isTaken taken n = false ∧ ∀ j, 0 < j → j < k → isTaken taken (numbered base j) = true)

theorem Naming.IsLeastFree.isNumberedIf {clashes : Prop} {taken : List Name} {base n : Name}
    (h : IsLeastFree taken base n) (hc : isTaken taken base ↔ clashes) :
    IsNumberedIf clashes taken base n := by
  rcases h with ⟨hfree, rfl⟩ | ⟨htaken, hnumber⟩
  · exact ⟨fun _ => rfl, fun hyes => absurd (hc.2 hyes) (by simp [hfree])⟩
  · exact ⟨fun hno => absurd (hc.1 htaken) hno, fun _ => hnumber⟩

namespace Property

def GaveWay (c : Convention) (id : TableId) (p : Property) : Prop :=
  ∃ col base, p.columns = [col] ∧ c.propertyName id col.name = .ok base ∧ ¬ p.name.same base

/-- Each property has the name that the convention has for its column, unless that one clashes;
then it has a number, the least that is free beside some names and those in front. What clashes may
depend on the properties in front. -/
def NamedInTurn (c : Convention) (id : TableId) (taken : List Name)
    (clashes : List Property → Name → Prop) (ps : List Property) : Prop :=
  ∀ before p after, ps = before ++ p :: after → ∃ col base, p.columns = [col] ∧
    c.propertyName id col.name = .ok base ∧
    Naming.IsNumberedIf (clashes before base) (taken ++ before.map name) base p.name

/-- A name is in use from the start, or was given to a property that could not have its own. -/
def ClashesBehind (c : Convention) (id : TableId) (taken : List Name) (before : List Property)
    (base : Name) : Prop :=
  Naming.isTaken taken base ∨ ∃ q ∈ before, q.GaveWay c id ∧ q.name.same base

/-- A name that none of the properties in front has as its own is one that was given to one of them
in its place. -/
theorem isTaken_iff_clashesBehind {taken : List Name} {cols : List Column} {qs : List Property}
    {role : Role} (hqs : List.Forall₂ (IsSketchOf c id role) cols qs) {base : Name}
    (hown : ∀ q ∈ qs, ¬ q.name.same base) :
    Naming.isTaken (taken ++ (nameInOrder taken qs).map name) base ↔
      ClashesBehind c id taken (nameInOrder taken qs) base := by
  have hgiven : ∀ p ∈ nameInOrder taken qs, p.name.same base → p.GaveWay c id := by
    intro p hp hsame
    obtain ⟨q, hq, hnamed, _⟩ := nameInOrder_isNamedFrom.exists_left hp
    obtain ⟨col, _, hasked, hmade⟩ := hqs.exists_left hq
    refine ⟨col, q.name, ?_, hasked, fun hkept => hown q hq ?_⟩
    · rw [hnamed]
      exact hmade.columns_eq
    · rw [Document.same_iff] at hkept hsame ⊢
      exact hkept.symm.trans hsame
  rw [Naming.isTaken, List.any_append, Bool.or_eq_true, ClashesBehind, Naming.isTaken]
  refine or_congr_right ?_
  simp only [List.any_map, List.any_eq_true, Function.comp]
  constructor
  · rintro ⟨p, hp, hsame⟩
    rw [Document.same_comm] at hsame
    exact ⟨p, hp, hgiven p hp hsame, hsame⟩
  · rintro ⟨p, hp, _, hsame⟩
    exact ⟨p, hp, by rwa [Document.same_comm]⟩

theorem nameInOrder_namedInTurn {taken : List Name} {cols : List Column} {qs : List Property}
    {role : Role} (hqs : List.Forall₂ (IsSketchOf c id role) cols qs)
    (hn : (qs.map fun q => q.name.key).Nodup) :
    NamedInTurn c id taken (ClashesBehind c id taken) (nameInOrder taken qs) := by
  intro before p after h
  obtain ⟨sketched, q, rest, rfl, rfl, rfl⟩ := nameInOrder_split h
  obtain ⟨front, back, rfl, hfront, hback⟩ := hqs.flip.of_append
  cases hback with
  | @cons _ col _ _ hq _ =>
    refine ⟨col, q.name, hq.2.columns_eq, hq.1,
      (Naming.fresh_isLeastFree _ _).isNumberedIf (isTaken_iff_clashesBehind hfront.flip ?_)⟩
    intro q' hq' hsame
    rw [List.map_append, List.map_cons, List.nodup_append] at hn
    exact hn.2.2 _ (List.mem_map_of_mem hq') _ List.mem_cons_self (Document.same_iff.1 hsame)

end Property

theorem Named.get?_append_singleton {α : Type} (es : Named α) (name n : Name) (value : α) :
    get? (es ++ [(name, value)]) n = (es.get? n).or (if name.same n then some value else none) := by
  induction es with
  | nil => simp [get?_cons]
  | cons e es ih =>
    rw [List.cons_append, get?_cons, get?_cons, ih]
    split <;> rfl

namespace Draft

theorem addScalars_names_distinct {cols : List Column} {done : Named Column} {d d' : Draft}
    {ps qs : List Property} {ws : List Warning} (hn : (nameKeys cols).Nodup)
    (h : addScalars c cols done d = ⟨.ok ps, d', ws⟩)
    (hqs : List.Forall₂ (Property.IsSketchOf c d.entity.tableId .scalar)
      (freeColumns d.claims cols) qs) :
    (qs.map fun q => q.name.key).Nodup ∧ ∀ q ∈ qs, done.get? q.name = none := by
  induction cols generalizing done d ps qs with
  | nil =>
    cases hqs
    exact ⟨List.nodup_nil, nofun⟩
  | cons col cols ih =>
    rw [nameKeys_cons, List.nodup_cons] at hn
    cases hf : d.claims.has col with
    | true =>
      rw [addScalars, if_pos hf] at h
      exact ih hn.2 h (by simpa [freeColumns, hf] using hqs)
    | false =>
      obtain ⟨name, p, d₁, rest, hname, _, hnew, hp, hrest, rfl⟩ := (addScalars_cons_eq_ok hf).1 h
      obtain ⟨_, _, _, hadd, _, _⟩ := addScalar_eq_ok.1 hp
      rw [freeColumns, List.filter_cons_of_pos (by simp [hf])] at hqs
      obtain ⟨q, rqs, hq, hrqs, rfl⟩ := List.forall₂_cons_left_iff.1 hqs
      obtain rfl : name = q.name := Except.ok.inj (hname.symm.trans hq.1)
      have htableId : d₁.entity.tableId = d.entity.tableId := by rw [hadd.entity_eq]; rfl
      rw [← freeColumns, ← freeColumns_insert hn.1, ← hadd.claims_eq, ← htableId] at hrqs
      obtain ⟨hnodup, hothers⟩ := ih hn.2 hrest hrqs
      have hapart : ∀ q' ∈ rqs, done.get? q'.name = none ∧ ¬ q.name.same q'.name := by
        intro q' hq'
        have hnone := hothers q' hq'
        rw [Named.get?_append_singleton, Option.or_eq_none_iff] at hnone
        exact ⟨hnone.1, fun hsame => by simp [hsame] at hnone⟩
      refine ⟨List.nodup_cons.2 ⟨fun hm => ?_, hnodup⟩,
        List.forall_mem_cons.2 ⟨hnew, fun q' hq' => (hapart q' hq').1⟩⟩
      obtain ⟨q', hq', hkey⟩ := List.mem_map.1 hm
      exact (hapart q' hq').2 (Document.same_iff.2 hkey.symm)

theorem addScalarsOf_namedInTurn {d d' : Draft} {ps : List Property} {ws : List Warning}
    (h : d.addScalarsOf c = ⟨.ok ps, d', ws⟩) :
    Property.NamedInTurn c d.entity.tableId d.entity.names
      (Property.ClashesBehind c d.entity.tableId d.entity.names) ps := by
  have hn := d.entity.table.nameKeys_nodup
  obtain ⟨qs, hqs, rfl, _⟩ := addScalars_sketched hn h
  exact Property.nameInOrder_namedInTurn hqs (addScalars_names_distinct hn h hqs).1

theorem complete_scalars {t : Table} {b : Entity} {d : Draft} {ws : List Warning}
    (hb : Entity.blank c s t = .ok b) (h : complete c s schema ⟨b, {}⟩ = ⟨.ok (), d, ws⟩) :
    ∃ (d' : Draft) (us : List Warning), d'.addScalarsOf c = ⟨.ok d.entity.scalars, d, us⟩ ∧
      d'.entity =
        { d.entity with properties := d.entity.version.toList ++ d.entity.references } := by
  obtain ⟨v, d₂, _, refs, d₃, _, scs, us, h₁₂, h₃, h₄⟩ := complete_steps h
  obtain ⟨o, hv⟩ := isVersioned_of_eq_ok hb h₁₂
  obtain ⟨_, _, hrefs, _, he₃, _⟩ := addReferences_eq_ok h₃
  obtain ⟨hscs, he₄⟩ := addScalars_eq_ok d₃.entity.table.nameKeys_nodup h₄
  have hprops : d.entity.properties = v.toList ++ refs ++ scs := by
    rw [he₄, he₃, hv.grown]
    rfl
  have hversions : ∀ p ∈ v.toList, p.kind = .version := by
    intro p hp
    obtain ⟨_, _, hm⟩ := hv.versioned p (Option.mem_toList.1 hp)
    exact hm.kind_eq
  have hreferences : ∀ p ∈ refs, p.kind = .reference := by
    intro p hp
    obtain ⟨_, _, hr⟩ := hrefs.exists_left hp
    exact hr.kind_eq
  have hscalars : ∀ p ∈ scs, p.kind = .scalar := by
    intro p hp
    obtain ⟨_, _, hm⟩ := hscs.exists_left hp
    exact hm.kind_eq
  have hlast : d.entity.scalars = scs := by
    rw [Entity.scalars, Entity.ofKinds, hprops]
    simp only [List.filter_append, filter_kind hversions, filter_kind hreferences,
      filter_kind hscalars]
    simp
  have hversion : d.entity.version = v := by
    rw [he₄, he₃, hv.grown]
    rfl
  refine ⟨d₃, us, by rwa [hlast], ?_⟩
  rw [hversion, Entity.references_of_parts hprops hversions hreferences hscalars, he₄, he₃,
    hv.grown]
  rfl

end Draft

namespace Entity

def namesBeforeScalars (e : Entity) : List Name :=
  { e with properties := e.version.toList ++ e.references }.names

def NamesScalars (c : Convention) (e : Entity) (clashes : List Property → Name → Prop) : Prop :=
  Property.NamedInTurn c e.tableId e.namesBeforeScalars clashes e.scalars

/-- The name is that of the identifier, the version or a reference, or an earlier scalar was given
it in place of its own. -/
def Clashes (c : Convention) (e : Entity) : List Property → Name → Prop :=
  Property.ClashesBehind c e.tableId e.namesBeforeScalars

theorem namesScalars_of_ofTable {t : Table} {e : Entity}
    (h : Entity.ofTable c s schema t = .ok e) : e.NamesScalars c (e.Clashes c) := by
  obtain ⟨b, d, ws, hb, hcomplete, rfl⟩ := ofTable_eq_ok.1 h
  obtain ⟨d', us, hscalars, hd'⟩ := Draft.complete_scalars hb hcomplete
  have hnamed := Draft.addScalarsOf_namedInTurn hscalars
  rwa [hd'] at hnamed

theorem NamesScalars.freeze {e : Entity} (h : e.NamesScalars c (e.Clashes c)) :
    e.freeze.NamesScalars c (e.freeze.Clashes c) := h

theorem NamesScalars.of_collectsTo {x : ReferenceIndex} {q : Registry} {d e : Entity}
    (hd : d.NamesScalars c (d.Clashes c)) (h : CollectsTo c x q d e)
    (hcollections : ∀ p ∈ d.properties, p.kind ≠ .collection) :
    e.NamesScalars c (e.Clashes c) := by
  obtain ⟨he, hkinds, _⟩ := h.layout hcollections
  have hscalars : e.scalars = d.scalars := hkinds _ (by simp)
  have hreferences : e.references = d.references := hkinds _ (by simp)
  have hid : e.tableId = d.tableId := by rw [he]
  have hnames : e.namesBeforeScalars = d.namesBeforeScalars := by
    rw [namesBeforeScalars, hreferences, he]
    rfl
  rw [NamesScalars, Clashes, hscalars, hid, hnames]
  exact hd

end Entity

namespace Registry

theorem namesScalars_of_ofSchema {r : Registry} (h : ofSchema c s schema = .ok r) {e : Entity}
    (he : e ∈ r.entities) : e.NamesScalars c (e.Clashes c) := by
  obtain ⟨x, ds, q, hfirst, _, hes⟩ := FirstPass.of_ofSchema h
  obtain ⟨d, hd, hcollects⟩ := hes.exists_left he
  obtain ⟨t, _, hmade⟩ := hfirst.made.exists_left hd
  have hnamed := (Entity.namesScalars_of_ofTable hmade).freeze
  exact hnamed.of_collectsTo hcollects (Entity.isCompleted_of_ofTable hmade).kind_ne_collection

/-- How the scalars of an entity are named, when its table is bound and at the end of a run. -/
theorem names_scalars (c : Convention) (s : Settings) (schema : Schema) :
    (∀ t (r r' : Registry) b ws, r.bind c s schema t = ⟨.ok b, r', ws⟩ →
      ∃ e, r'.entities = r.entities ++ [e] ∧ e.table = t ∧ e.NamesScalars c (e.Clashes c)) ∧
    ∀ r, ofSchema c s schema = .ok r → ∀ e ∈ r.entities, e.NamesScalars c (e.Clashes c) := by
  refine ⟨fun t r r' b ws h => ?_, fun r h e he => namesScalars_of_ofSchema h he⟩
  obtain ⟨e, he, henter, _⟩ := bind_eq_ok h
  obtain ⟨_, rfl⟩ := enter_eq_ok.1 henter
  exact ⟨e.freeze, rfl, (Entity.isCompleted_of_ofTable he).table_eq,
    (Entity.namesScalars_of_ofTable he).freeze⟩

end Registry

def Table.echoes : Table where
  id := { name := "orders" }
  columns := [{ name := "id" }, { name := "customer" }, { name := "customers" },
    { name := "customers_1" }]
  primaryKey := some .ofId
  foreignKeys := [.ofOrder]
  comment := .null
  names_plain := by decide
  names_nodup := by decide
  key_columns := by decide
  foreign_owner := Table.orders.foreign_owner
  foreign_columns := by decide

def Schema.echoes : Schema where
  tables := [.customers, .echoes]
  ids_plain := by decide
  ids_nodup := by decide
  targets_plain := by decide
  targets_known := by decide

namespace Registry

/-- The first column gives way to the reference, and the second one to the name that the first has
then. -/
theorem names_scalars_echoes :
    (∃ r b r' ws, bind .plain {} .echoes .echoes r = ⟨.ok b, r', ws⟩ ∧
      ∃ e, r'.entities = r.entities ++ [e] ∧ e.table = .echoes ∧
        e.NamesScalars .plain (e.Clashes .plain)) ∧
    ∃ r, ofSchema .plain {} .echoes = .ok r ∧
      (r.entities.map fun e => (e.references ++ e.scalars).map Property.name) =
        [[.text "name"], [.text "customers", .text "customers_1", .text "customers_1_1"]] ∧
      ∀ e ∈ r.entities, e.NamesScalars .plain (e.Clashes .plain) := by
  obtain ⟨hstep, hrun⟩ := names_scalars .plain {} .echoes
  constructor
  · have hbound : (bind .plain {} .echoes .echoes {}).answer.toOption.any fun _ => true := by decide
    obtain ⟨b, r', ws, h, _⟩ := Outcome.exists_ok_of_answer_any hbound
    exact ⟨{}, b, r', ws, h, hstep .echoes {} r' b ws h⟩
  · have hresult : (ofSchema .plain {} .echoes).toOption.any fun r =>
        (r.entities.map fun e => (e.references ++ e.scalars).map Property.name) =
          [[.text "name"], [.text "customers", .text "customers_1", .text "customers_1_1"]] := by
      decide
    obtain ⟨r, h, hnames⟩ := exists_ok_of_toOption_any hresult
    exact ⟨r, h, of_decide_eq_true hnames, hrun r h⟩

/-- The last column of the orders has a number although neither the identifier nor a reference has
its name. -/
theorem not_namesScalars_echoes : ¬ ∀ r, ofSchema .plain {} .echoes = .ok r → ∀ e ∈ r.entities,
    e.NamesScalars .plain fun _ base => Naming.isTaken e.namesBeforeScalars base := by
  have hresult : (ofSchema .plain {} .echoes).toOption.any fun r => r.entities.any fun e =>
      e.namesBeforeScalars = [.text "id", .text "customers"] &&
        e.scalars.map (fun p => (p.name, p.columns.map Column.name)) =
          [(.text "customers_1", [.text "customers"]),
            (.text "customers_1_1", [.text "customers_1"])] := by decide
  obtain ⟨r, h, hany⟩ := exists_ok_of_toOption_any hresult
  obtain ⟨e, he, hboth⟩ := List.any_eq_true.1 hany
  obtain ⟨hbefore, hscalars⟩ := Bool.and_eq_true_iff.1 hboth
  obtain ⟨first, rest, hsplit, _, hrest⟩ := List.map_eq_cons_iff.1 (of_decide_eq_true hscalars)
  obtain ⟨last, hlast, hdata⟩ := List.map_eq_singleton_iff.1 hrest
  obtain ⟨hname, hcolumns⟩ := Prod.mk.inj hdata
  intro hall
  obtain ⟨col, base, hcol, hbase, hkept, _⟩ :=
    hall r h e he [first] last [] (by rw [hsplit, hlast]; rfl)
  rw [hcol, List.map_singleton, List.singleton_inj] at hcolumns
  have hfree : ¬ Naming.isTaken e.namesBeforeScalars base := by
    rw [of_decide_eq_true hbefore, ← Except.ok.inj hbase, hcolumns]
    decide
  have hown : last.name = .text "customers_1" :=
    (hkept hfree).trans ((Except.ok.inj hbase).symm.trans hcolumns)
  rw [hname] at hown
  exact absurd hown (by decide)

end Registry
end EntityMapping
