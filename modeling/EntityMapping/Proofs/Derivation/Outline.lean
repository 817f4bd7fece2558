import EntityMapping.Proofs.Derivation.TwoPasses

/-! # Outlines

An outline holds what the first pass makes of a table before the properties are named: everything in
it is answered by the convention or read off the table, and no part depends on the names of the
others. The entity of a table is its outline with the properties named in their order.
-/
namespace EntityMapping
open Column

variable {c : Convention} {s : Settings} {schema : Schema} {t : Table}

/-- The blank entity, its identifier, the column of the version, the keys that are bound, and the
sketches of the version, of the references and of the scalars. -/
structure Outline where
  blank : Entity
  identifier : Identifier
  versionColumn : Option Column
  keys : List (ForeignKey × Bool)
  version : List Property
  references : List Property
  scalars : List Property

namespace Outline

def start (o : Outline) : Entity := { o.blank with identifier := o.identifier }

def sketches (o : Outline) : List Property := o.version ++ o.references ++ o.scalars

def claims (o : Outline) (t : Table) : Claims := ⟨t.keyColumns ++ o.versionColumn.toList⟩

def entity (o : Outline) : Entity :=
  { o.start with
    properties := Property.nameInOrder o.start.names o.sketches
    version := (Property.nameInOrder o.start.names o.version).head? }

structure IsOf (o : Outline) (c : Convention) (s : Settings) (schema : Schema) (t : Table) :
    Prop where
  blank_eq : Entity.blank c s t = .ok o.blank
  identified : ∃ ws, Draft.identify c s ⟨o.blank, {}⟩ =
    ⟨.ok o.identifier, ⟨o.start, ⟨t.keyColumns⟩⟩, ws⟩
  searched : Draft.versionColumn c t (s.normalize t.id) ⟨t.keyColumns⟩ = .ok o.versionColumn
  versioned : List.Forall₂ (Property.IsSketchOf c (s.normalize t.id) .version)
    o.versionColumn.toList o.version
  planned : boundKeys c s schema (o.claims t) t.foreignKeys = .ok o.keys
  referenced : List.Forall₂ (fun k q => referenceSketch c s t k.1 k.2 = .ok q) o.keys o.references
  scaled : List.Forall₂ (Property.IsSketchOf c (s.normalize t.id) .scalar)
    (Draft.freeColumns ((o.claims t).insertAll (keyedColumns o.keys)) t.columns) o.scalars

end Outline

/-- Properties that are named step by step are named in one order. -/
theorem Outline.entity_eq (o : Outline) {v : Option Property} {e₂ e₃ : Entity}
    (hnone : o.start.properties = [])
    (hv : v.toList = Property.nameInOrder o.start.names o.version)
    (h₂ : e₂ = { o.start.extend v.toList with version := v })
    (h₃ : e₃ = e₂.extend (Property.nameInOrder e₂.names o.references)) :
    e₃.extend (Property.nameInOrder e₃.names o.scalars) = o.entity := by
  have hnames₂ : e₂.names = o.start.names ++ v.toList.map Property.name := by
    rw [h₂]
    exact Entity.names_extend o.start v.toList
  have hnames₃ : e₃.names = o.start.names ++ v.toList.map Property.name ++
      (Property.nameInOrder e₂.names o.references).map Property.name := by
    rw [h₃, Entity.names_extend, hnames₂]
  have hhead : v = (Property.nameInOrder o.start.names o.version).head? := by
    rw [← hv]
    cases v <;> rfl
  have hproperties : Property.nameInOrder o.start.names o.sketches = v.toList ++
      Property.nameInOrder e₂.names o.references ++ Property.nameInOrder e₃.names o.scalars := by
    rw [hnames₃, hnames₂, sketches, Property.nameInOrder_append, Property.nameInOrder_append, ← hv,
      List.map_append, List.append_assoc o.start.names]
  rw [entity, hproperties, ← hhead, h₃, h₂]
  simp [Entity.extend, hnone]

theorem Entity.exists_outline {e : Entity} (h : Entity.ofTable c s schema t = .ok e) :
    ∃ o : Outline, o.IsOf c s schema t ∧ e = o.entity := by
  obtain ⟨b, d, ws, hb, hcomplete, rfl⟩ := ofTable_eq_ok.1 h
  obtain ⟨v, d₂, _, refs, d₃, _, scs, _, h₁₂, h₃, h₄⟩ := Draft.complete_steps hcomplete
  obtain ⟨o, hv⟩ := Draft.isVersioned_of_eq_ok hb h₁₂
  obtain ⟨vs, hvs, hver⟩ := hv.sketched
  obtain ⟨ks, rs, hks, hrs, rfl, he₃, hc₃⟩ := Draft.addReferences_sketched h₃
  obtain ⟨ss, hss, rfl, he₄⟩ := Draft.addScalars_sketched d₃.entity.table.nameKeys_nodup h₄
  have hclaims : d₂.claims = ⟨t.keyColumns ++ o.toList⟩ := by
    rw [hv.claimed, startingClaims, hv.columns_eq]
  have htable := hv.table_eq hb
  have hid := hv.tableId_eq hb
  rw [hclaims, htable] at hks
  rw [htable] at hrs
  rw [hc₃, hclaims, he₃, extend_table, extend_tableId, htable, hid] at hss
  have hnone : b.properties = [] := (blank_eq_ok hb).2.2.2.1
  have hgrown := hv.grown
  have hasked := hv.asked
  generalize d₂.entity.identifier = i at hgrown hasked hver
  refine ⟨⟨b, i, o, ks, vs, rs, ss⟩, ⟨hb, hasked, hv.searched, hvs, hks, hrs, hss⟩, ?_⟩
  have hstart : d₂.entity =
      { { b with identifier := i }.extend v.toList with version := v } := by
    rw [hgrown]
    simp [extend, hnone]
  rw [he₄]
  exact Outline.entity_eq ⟨b, i, o, ks, vs, rs, ss⟩ hnone hver hstart he₃

theorem Outline.IsOf.version_columns {o : Outline} (h : o.IsOf c s schema t) :
    o.entity.version.map Property.columns = o.versionColumn.map fun col => [col] := by
  have hmade := forall₂_isMadeFrom o.start.names h.versioned
  have hversion : o.entity.version = (Property.nameInOrder o.start.names o.version).head? := rfl
  rw [hversion]
  cases hv : o.versionColumn with
  | none =>
    rw [hv] at hmade
    rw [List.forall₂_nil_left_iff.1 hmade]
    rfl
  | some col =>
    rw [hv] at hmade
    obtain ⟨p, ps, hp, _, heq⟩ := List.forall₂_cons_left_iff.1 hmade
    rw [heq, List.head?_cons, Option.map_some, hp.columns_eq]
    rfl

/-- The version of an entity at the end of a run is on the column that its table has for it. -/
theorem Registry.version_columns {r : Registry} (h : ofSchema c s schema = .ok r) {e : Entity}
    (he : e ∈ r.entities) : ∃ v, Draft.versionColumn c e.table (s.normalize e.table.id)
      ⟨e.table.keyColumns⟩ = .ok v ∧ e.version.map Property.columns = v.map fun col => [col] := by
  obtain ⟨x, ds, q, hfirst, _, hes⟩ := FirstPass.of_ofSchema h
  obtain ⟨d, hd, hcollects⟩ := hes.exists_left he
  obtain ⟨t, _, hmade⟩ := hfirst.made.exists_left hd
  have htable : e.table = t := hcollects.agreesAsOwner.table_eq.symm.trans
    (Entity.isCompleted_of_ofTable hmade).table_eq
  obtain ⟨o, ho, rfl⟩ := Entity.exists_outline hmade
  obtain ⟨ps, rfl, _⟩ := hcollects.parts
  rw [htable]
  exact ⟨o.versionColumn, ho.searched, ho.version_columns⟩

end EntityMapping
