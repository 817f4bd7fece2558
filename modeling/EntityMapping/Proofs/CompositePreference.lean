import EntityMapping.Proofs.CollectionExactness
import EntityMapping.Proofs.Derivation.Outline
import EntityMapping.Proofs.FirstFailure
import EntityMapping.Proofs.SchemaExtension

/-! # Preferring basic composite identifiers

The preference adds references that cannot be changed, along keys whose columns are claimed already,
and nothing else: the claimed columns are the same step by step, and so is all that depends on them.
-/
namespace EntityMapping
open Column

variable {c : Convention} {s : Settings} {schema : Schema}

def Settings.preferring (s : Settings) (basicComposites : Bool) : Settings :=
  { s with basicComposites }

theorem Claims.has_insertAll_of_hasAll {u : Claims} {cols : List Column} (h : u.hasAll cols)
    (col : Column) : (u.insertAll cols).has col = u.has col := by
  rw [has_insertAll, Bool.or_eq_right_iff_imp, List.any_eq_true]
  rintro ⟨d, hd, hsame⟩
  rw [← has_congr u hsame]
  exact List.all_eq_true.1 h d hd

section
variable {t u : Claims}

/-- A reference that cannot be changed holds claimed columns. -/
theorem hasAll_of_treatment {f : ForeignKey} (h : treatment c s u f = .ok (.bound false)) :
    u.hasAll f.columns := by
  obtain ⟨skips, _, hskips⟩ := treatment_eq_ok.1 h
  by_contra hall
  cases skips <;> simp [hall] at hskips

/-- Without the preference a key over claimed columns is left to them. -/
theorem treatment_preferring (h : ∀ col, t.has col = u.has col) (f : ForeignKey) :
    treatment c (s.preferring false) t f = (treatment c (s.preferring true) u f).map fun
      | .bound false => .claimed
      | tr => tr := by
  have hall : t.hasAll f.columns = u.hasAll f.columns := by
    simp only [Claims.hasAll, funext h]
  rw [treatment, treatment, hall]
  rcases c.skipsReference f with fault | _ | _
  · rfl
  · cases u.hasAll f.columns <;> rfl
  · rfl

/-- The keys that are bound without the preference are those that can be changed with it. -/
theorem boundKeys_preferring (h : ∀ col, t.has col = u.has col) (fs : List ForeignKey) :
    boundKeys c (s.preferring false) schema t fs =
      (boundKeys c (s.preferring true) schema u fs).map (List.filter Prod.snd) := by
  induction fs generalizing t u with
  | nil => rfl
  | cons f fs ih =>
    have hboth : ∀ col, (t.insertAll f.columns).has col = (u.insertAll f.columns).has col := by
      intro col
      rw [Claims.has_insertAll, Claims.has_insertAll, h]
    rw [boundKeys, boundKeys, treatment_preferring h f]
    split
    · cases htr : treatment c (s.preferring true) u f with
      | error fault => rfl
      | ok tr =>
        rcases tr with _ | _ | _ | _
        · exact ih h
        · exact ih h
        · -- The key adds nothing to the claims with the preference, and is not bound without it.
          have hclaimed := hasAll_of_treatment htr
          have hone : ∀ col, t.has col = (u.insertAll f.columns).has col := fun col => by
            rw [Claims.has_insertAll_of_hasAll hclaimed, h]
          simp only [Except.map, bind, Except.bind, ih hone]
          cases boundKeys c (s.preferring true) schema (u.insertAll f.columns) fs <;> rfl
        · simp only [Except.map, bind, Except.bind, ih hboth]
          cases boundKeys c (s.preferring true) schema (u.insertAll f.columns) fs <;> rfl
    · exact ih h

/-- The references that the preference adds claim no further column. -/
theorem has_insertAll_preferring {fs : List ForeignKey} {ks : List (ForeignKey × Bool)}
    (h : ∀ col, t.has col = u.has col)
    (hks : boundKeys c (s.preferring true) schema u fs = .ok ks) (col : Column) :
    (t.insertAll (keyedColumns (ks.filter Prod.snd))).has col =
      (u.insertAll (keyedColumns ks)).has col := by
  induction fs generalizing t u ks with
  | nil =>
    obtain rfl : [] = ks := Answer.pure_eq_ok.1 hks
    exact h col
  | cons f fs ih =>
    rcases boundKeys_cons_eq_ok.1 hks with ⟨m, ls, _, htr, hls, rfl⟩ | ⟨_, hks⟩
    · rw [keyedColumns_cons, Claims.insertAll_append]
      cases m with
      | false =>
        have hclaimed := hasAll_of_treatment htr
        refine ih (fun col => ?_) hls
        rw [Claims.has_insertAll_of_hasAll hclaimed, h]
      | true =>
        rw [List.filter_cons_of_pos rfl, keyedColumns_cons, Claims.insertAll_append]
        refine ih (fun col => ?_) hls
        rw [Claims.has_insertAll, Claims.has_insertAll, h]
    · exact ih h hks

theorem freeColumns_preferring {fs : List ForeignKey} {ks : List (ForeignKey × Bool)}
    (h : ∀ col, t.has col = u.has col)
    (hks : boundKeys c (s.preferring true) schema u fs = .ok ks) (cols : List Column) :
    Draft.freeColumns (t.insertAll (keyedColumns (ks.filter Prod.snd))) cols =
      Draft.freeColumns (u.insertAll (keyedColumns ks)) cols :=
  List.filter_congr fun col _ => by rw [has_insertAll_preferring h hks]

end

theorem Table.unclaimed_preferring (t : Table) : t.unclaimed c (s.preferring false) schema =
    t.unclaimed c (s.preferring true) schema := by
  rw [unclaimed, unclaimed]
  refine bind_congr fun version => ?_
  dsimp only
  generalize (⟨t.keyColumns ++ version.toList⟩ : Claims) = claims
  rw [boundKeys_preferring fun _ => rfl]
  cases hks : boundKeys c (s.preferring true) schema claims t.foreignKeys with
  | error fault => rfl
  | ok ks =>
    exact congrArg Except.ok (freeColumns_preferring (fun _ => rfl) hks t.columns)

theorem Table.isClear_preferring (t : Table) : t.IsClear c (s.preferring false) schema ↔
    t.IsClear c (s.preferring true) schema := by
  rw [isClear_iff, isClear_iff, unclaimed_preferring]
  rfl

/-- The other entity differs in the form of its identifier and in names, and has further references
that cannot be changed. -/
structure Entity.AddsFixedReferences (e e' : Entity) : Prop where
  name_eq : e.name = e'.name
  table_eq : e.table = e'.table
  identifier_columns : e.identifier.columns = e'.identifier.columns
  version_columns : e.version.map Property.columns = e'.version.map Property.columns
  scalar_columns : e.scalars.map Property.columns = e'.scalars.map Property.columns
  collection_keys : e.collections.map Property.foreignKey? = e'.collections.map Property.foreignKey?
  reference_keys : e.references.map Property.foreignKey? =
    (e'.references.filter fun p => p.mutable = .bool true).map Property.foreignKey?
  references_mutable : ∀ p ∈ e.references, p.mutable = .bool true

namespace Derives
variable {r : Registry} {t : Table} {v : Option Property} {ks : List (ForeignKey × Bool)}
  {refs scs colls : List Property} {e : Entity}

theorem collection_keys (h : Derives c s schema r t v ks refs scs colls e) :
    e.collections.map Property.foreignKey? = (e.incomingKeys c s schema).map some := by
  rw [h.collections_eq]
  exact (h.collected.map_eq_map fun f p ⟨_, _, hp⟩ => hp.foreignKey?_eq.symm).symm

theorem reference_keys (h : Derives c s schema r t v ks refs scs colls e) :
    e.references.map (fun p => (p.foreignKey?, p.mutable)) =
      ks.map fun k => (some k.1, (.bool k.2 : Document)) := by
  obtain ⟨d, hd, _⟩ := h.completed
  rw [h.references_eq]
  exact (hd.referenced.map_eq_map fun k p hp => by rw [hp.foreignKey?_eq, hp.mutable_eq]).symm

theorem mutable_keys (h : Derives c s schema r t v ks refs scs colls e) :
    (e.references.filter fun p => p.mutable = .bool true).map Property.foreignKey? =
      (ks.filter Prod.snd).map fun k => some k.1 := by
  have hpairs := congrArg (fun l => (l.filter fun x => x.2 = .bool true).map Prod.fst)
    h.reference_keys
  simp only [List.filter_map, List.map_map] at hpairs
  have hflag : ((fun x : Option ForeignKey × Document => decide (x.2 = .bool true)) ∘
      fun k : ForeignKey × Bool => (some k.1, .bool k.2)) = Prod.snd := by
    funext k
    rcases k with ⟨_, _ | _⟩ <;> rfl
  rw [hflag] at hpairs
  exact hpairs

theorem references_mutable (h : Derives c s schema r t v ks refs scs colls e)
    (hks : ∀ k ∈ ks, k.2 = true) : ∀ p ∈ e.references, p.mutable = .bool true := by
  intro p hp
  have hmem : (p.foreignKey?, p.mutable) ∈
      e.references.map fun p => (p.foreignKey?, p.mutable) := List.mem_map_of_mem hp
  rw [h.reference_keys] at hmem
  obtain ⟨k, hk, heq⟩ := List.mem_map.1 hmem
  have hflag : (.bool k.2 : Document) = p.mutable := congrArg Prod.snd heq
  rw [← hflag, hks k hk]

theorem scalar_columns_map (h : Derives c s schema r t v ks refs scs colls e) :
    e.scalars.map Property.columns = (Draft.freeColumns
      ((startingClaims t v).insertAll (keyedColumns ks)) t.columns).map fun col => [col] := by
  obtain ⟨d, hd, _⟩ := h.completed
  rw [h.scalars_eq]
  exact (hd.scaled.map_eq_map fun col p hp => hp.columns_eq.symm).symm

end Derives

theorem startingClaims_congr {t : Table} {v w : Option Property}
    (h : v.map Property.columns = w.map Property.columns) :
    startingClaims t v = startingClaims t w := by
  have hcolumns : ∀ u : Option Property,
      u.toList.flatMap Property.columns = (u.map Property.columns).getD [] := by
    intro u
    cases u <;> simp
  rw [startingClaims, startingClaims, hcolumns, hcolumns, h]

namespace Registry
variable {r r' : Registry}

theorem version_columns_preferring {t : Table} {e e' : Entity}
    (h : ofSchema c (s.preferring false) schema = .ok r)
    (h' : ofSchema c (s.preferring true) schema = .ok r') (he : e ∈ r.entities)
    (he' : e' ∈ r'.entities) (ht : e.table = t) (ht' : e'.table = t) :
    e.version.map Property.columns = e'.version.map Property.columns := by
  obtain ⟨v, hv, hcols⟩ := version_columns h he
  obtain ⟨v', hv', hcols'⟩ := version_columns h' he'
  rw [ht] at hv
  rw [ht'] at hv'
  obtain rfl : v = v' := Except.ok.inj (hv.symm.trans hv')
  rw [hcols, hcols']

theorem addsFixedReferences {t : Table} {e e' : Entity}
    (hd : IsDerived c (s.preferring false) schema r t e)
    (hd' : IsDerived c (s.preferring true) schema r' t e')
    (hversion : e.version.map Property.columns = e'.version.map Property.columns) :
    e.AddsFixedReferences e' := by
  obtain ⟨v, ks, refs, scs, colls, hd⟩ := hd
  obtain ⟨v', ks', refs', scs', colls', hd'⟩ := hd'
  have hname : e.name = e'.name := Except.ok.inj (hd.name_eq.symm.trans hd'.name_eq)
  have htable : e.table = e'.table := hd.table_eq.trans hd'.table_eq.symm
  have hclaims : startingClaims t v = startingClaims t v' := by
    rw [hd.version_eq, hd'.version_eq] at hversion
    exact startingClaims_congr hversion
  obtain ⟨_, hcompleted, _⟩ := hd.completed
  obtain ⟨_, hcompleted', _⟩ := hd'.completed
  have hkeys : ks = ks'.filter Prod.snd := by
    have hplanned := hcompleted.planned
    rw [hclaims, boundKeys_preferring fun _ => rfl, hcompleted'.planned] at hplanned
    exact (Except.ok.inj hplanned).symm
  have hid : e.hasIdentifier = e'.hasIdentifier := by
    rw [Bool.eq_iff_iff, hd.hasIdentifier_iff, hd'.hasIdentifier_iff, htable]
  have hmutable := hd.references_mutable fun k hk => by
    rw [hkeys, List.mem_filter] at hk
    exact hk.2
  refine ⟨hname, htable, hd.identifier_columns.trans hd'.identifier_columns.symm, hversion, ?_, ?_,
    ?_, hmutable⟩
  · rw [hd.scalar_columns_map, hd'.scalar_columns_map, hkeys, hclaims,
      freeColumns_preferring (fun _ => rfl) hcompleted'.planned]
  · rw [hd.collection_keys, hd'.collection_keys, Entity.incomingKeys, Entity.incomingKeys, hid,
      hname]
    rfl
  · have hall : (e.references.filter fun p => p.mutable = .bool true) = e.references :=
      List.filter_eq_self.2 fun p hp => decide_eq_true (hmutable p hp)
    rw [← hall, hd.mutable_keys, hd'.mutable_keys, hkeys, List.filter_filter]
    simp only [Bool.and_self]

/-- The preference for basic composite identifiers decides neither over the success of a run nor
over anything but the form of composite identifiers, names, and references that cannot be
changed. -/
theorem ofSchema_preferring (c : Convention) (s : Settings) (schema : Schema) :
    (c.IsTotal → schema.IsTyped → ((∃ r, ofSchema c (s.preferring false) schema = .ok r) ↔
      ∃ r, ofSchema c (s.preferring true) schema = .ok r)) ∧
    ∀ r r', ofSchema c (s.preferring false) schema = .ok r →
      ofSchema c (s.preferring true) schema = .ok r' →
      List.Forall₂ Entity.AddsFixedReferences r.entities r'.entities := by
  constructor
  · intro hc hs
    rw [ofSchema_isOk_iff hc hs, ofSchema_isOk_iff hc hs]
    simp only [Table.isClear_preferring]
    rfl
  · intro r r' h h'
    obtain ⟨_, hall⟩ := ofSchema_eq_ok h
    obtain ⟨_, hall'⟩ := ofSchema_eq_ok h'
    have hboth := hall.flip.trans hall' fun e t e' hd hd' => (⟨t, hd, hd'⟩ : ∃ t,
      IsDerived c (s.preferring false) schema r t e ∧
        IsDerived c (s.preferring true) schema r' t e')
    refine hboth.imp_of_mem fun e he e' he' ⟨t, hd, hd'⟩ => ?_
    exact addsFixedReferences hd hd'
      (version_columns_preferring h h' he he' hd.table_eq hd'.table_eq)

end Registry

def ForeignKey.ofLine : ForeignKey := { ForeignKey.ofReturn with table := { name := "lines" } }

def Table.lines : Table where
  id := { name := "lines" }
  columns := [{ name := "order" }, { name := "line" }, { name := "count" }]
  primaryKey := some { columns := [{ name := "order" }, { name := "line" }], columns_ne := by simp }
  foreignKeys := [.ofLine]
  comment := .null
  names_plain := by decide
  names_nodup := by decide
  key_columns := by decide
  foreign_owner := by decide
  foreign_columns := by decide

def Schema.orderLines : Schema where
  tables := [{ Table.orders with
    foreignKeys := [], foreign_owner := by decide, foreign_columns := by decide }, .lines]
  ids_plain := by decide
  ids_nodup := by decide
  targets_plain := by decide
  targets_known := by decide

/-- The lines refer to their order only when basic composites are preferred. -/
theorem Registry.ofSchema_preferring_orderLines :
    Convention.plain.IsTotal ∧ Schema.orderLines.IsTyped ∧
    ((∃ r, ofSchema .plain (Settings.preferring {} false) .orderLines = .ok r) ↔
      ∃ r, ofSchema .plain (Settings.preferring {} true) .orderLines = .ok r) ∧
    ∃ r r', ofSchema .plain (Settings.preferring {} false) .orderLines = .ok r ∧
      ofSchema .plain (Settings.preferring {} true) .orderLines = .ok r' ∧
      r.entities.map (fun e => e.references.length) = [0, 0] ∧
      r'.entities.map (fun e => e.references.length) = [0, 1] ∧
      List.Forall₂ Entity.AddsFixedReferences r.entities r'.entities := by
  have hrun : (ofSchema .plain (Settings.preferring {} false) .orderLines).toOption.any fun r =>
      r.entities.map (fun e => e.references.length) = [0, 0] := by decide +kernel
  have hrun' : (ofSchema .plain (Settings.preferring {} true) .orderLines).toOption.any fun r =>
      r.entities.map (fun e => e.references.length) = [0, 1] := by decide +kernel
  obtain ⟨r, h, hcount⟩ := exists_ok_of_toOption_any hrun
  obtain ⟨r', h', hcount'⟩ := exists_ok_of_toOption_any hrun'
  have htyped : Schema.orderLines.IsTyped := by decide
  obtain ⟨hsuccess, hentities⟩ := ofSchema_preferring .plain {} .orderLines
  exact ⟨Convention.plain_isTotal, htyped, hsuccess Convention.plain_isTotal htyped, r, r', h, h',
    of_decide_eq_true hcount, of_decide_eq_true hcount', hentities r r' h h'⟩

end EntityMapping
