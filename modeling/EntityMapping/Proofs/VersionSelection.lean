import EntityMapping.Convention.Basic
import EntityMapping.Proofs.ColumnOwnership
import EntityMapping.Proofs.Convention.Total
import EntityMapping.Proofs.Derivation.NameClash
import EntityMapping.Proofs.Derivation.Outline

/-! # Which column becomes the version

A lock column that is named is taken if the table has it outside its primary key, and nothing else
is; otherwise the first column is taken that qualifies. What the search passes over stays free for
the references and the scalars. The type of a column is looked at by the search alone, so that a
column that is named may be one that cannot count versions.
-/
namespace EntityMapping
open Column

variable {c : Convention} {s : Settings} {schema : Schema} {id : TableId} {t : Table}

def IsFirst {α : Type} (P : α → Prop) (l : List α) : Option α → Prop
  | none => ∀ x ∈ l, ¬ P x
  | some a => ∃ pre post, l = pre ++ a :: post ∧ P a ∧ ∀ x ∈ pre, ¬ P x

namespace IsFirst
variable {α : Type} {P : α → Prop} {l : List α} {a : α} {o : Option α}

theorem head (h : P a) : IsFirst P (a :: l) (some a) := ⟨[], l, rfl, h, by simp⟩

theorem cons (ha : ¬ P a) (h : IsFirst P l o) : IsFirst P (a :: l) o := by
  cases o with
  | none => exact List.forall_mem_cons.2 ⟨ha, h⟩
  | some b =>
    obtain ⟨pre, post, rfl, hb, hpre⟩ := h
    exact ⟨a :: pre, post, rfl, hb, List.forall_mem_cons.2 ⟨ha, hpre⟩⟩

theorem mem (h : IsFirst P l (some a)) : a ∈ l ∧ P a := by
  obtain ⟨pre, post, rfl, ha, _⟩ := h
  exact ⟨by simp, ha⟩

end IsFirst

/-- The column lies outside the primary key, is meant for versions, and has a type that counts
them. -/
def Table.Qualifies (c : Convention) (id : TableId) (t : Table) (col : Column) : Prop :=
  ¬ col.isAmong t.keyColumns ∧ c.isVersionColumn id col.name = .ok true ∧
    ∃ type, c.logicalType id col false = .ok type ∧ LogicalType.countsVersions type

def Table.SelectsVersion (c : Convention) (id : TableId) (t : Table) (o : Option Column) : Prop :=
  ∃ name, c.lockColumn id = .ok name ∧
    if name.truthy then
      IsFirst (fun col => col.name.same name ∧ ¬ col.isAmong t.keyColumns) t.columns o
    else IsFirst (t.Qualifies c id) t.columns o

theorem Table.has_keyColumns {col : Column} (hcol : col ∈ t.columns) :
    Claims.has ⟨t.keyColumns⟩ col ↔ col.isAmong t.keyColumns :=
  Claims.has_iff.trans (Table.isAmong_iff_name (fun _ hkey => Table.isAmong_of_mem_keyColumns hkey)
    (isAmong_of_mem hcol)).symm

namespace Draft

theorem searchedColumn_isFirst {cols : List Column} (hcols : cols ⊆ t.columns) {o : Option Column}
    (h : searchedColumn c id ⟨t.keyColumns⟩ cols = .ok o) : IsFirst (t.Qualifies c id) cols o := by
  induction cols with
  | nil =>
    obtain rfl : none = o := Answer.pure_eq_ok.1 h
    simp [IsFirst]
  | cons col cols ih =>
    obtain ⟨hcol, hrest⟩ := List.cons_subset.1 hcols
    have hkey := Table.has_keyColumns hcol
    rw [searchedColumn] at h
    split at h
    · rename_i hclaimed
      exact (ih hrest h).cons fun hq => hq.1 (hkey.1 hclaimed)
    · rename_i hfree
      obtain ⟨isVersion, hasked, h⟩ := Answer.bind_eq_ok.1 h
      split at h
      · rename_i hyes
        rw [hyes] at hasked
        obtain ⟨type, hgiven, hkeyed⟩ := Answer.bind_eq_ok.1 h
        obtain ⟨given, hplain, htaken⟩ := Answer.bind_eq_ok.1 hkeyed
        obtain ⟨_, rfl⟩ := Document.asKey_eq_ok.1 hplain
        split at htaken
        · rename_i hcounts
          obtain rfl : some col = o := Answer.pure_eq_ok.1 htaken
          exact .head ⟨mt hkey.2 hfree, hasked, _, hgiven, hcounts⟩
        · rename_i hnot
          refine (ih hrest htaken).cons ?_
          rintro ⟨_, _, type', htype', hcounts⟩
          rw [hgiven] at htype'
          exact hnot (Except.ok.inj htype' ▸ hcounts)
      · rename_i hno
        refine (ih hrest h).cons ?_
        rintro ⟨_, hasked', _⟩
        rw [hasked] at hasked'
        exact hno (Except.ok.inj hasked')

/-- A name leads to one column at most, so that nothing is left when that one is in the key. -/
theorem namedColumn_isFirst (t : Table) (name : Name) :
    IsFirst (fun col => col.name.same name ∧ ¬ col.isAmong t.keyColumns) t.columns
      ((t.column? name).filter fun col => !Claims.has ⟨t.keyColumns⟩ col) := by
  cases hf : t.column? name with
  | none =>
    intro col hcol ⟨hname, _⟩
    exact List.find?_eq_none.1 hf col hcol hname
  | some col =>
    obtain ⟨hmem, hname⟩ := mem_of_find? hf
    have hkey := Table.has_keyColumns hmem
    cases hclaimed : Claims.has ⟨t.keyColumns⟩ col with
    | true =>
      rw [Option.filter_some_neg (by simp [hclaimed])]
      intro col' hmem' ⟨hname', hfree⟩
      have hsame := (Document.same_iff.1 hname').trans (Document.same_iff.1 hname).symm
      rw [Table.column_ext hmem' hmem hsame] at hfree
      exact hfree (hkey.1 hclaimed)
    | false =>
      rw [Option.filter_some_pos (by simp [hclaimed])]
      obtain ⟨_, pre, post, hsplit, hpre⟩ := List.find?_eq_some_iff_append.1 hf
      refine ⟨pre, post, hsplit, ⟨hname, mt hkey.2 (by simp [hclaimed])⟩, fun x hx hnamed => ?_⟩
      have hother := hpre x hx
      simp [hnamed.1] at hother

theorem versionColumn_selects {o : Option Column}
    (h : versionColumn c t id ⟨t.keyColumns⟩ = .ok o) : t.SelectsVersion c id o := by
  obtain ⟨name, hname, h⟩ := Answer.bind_eq_ok.1 h
  refine ⟨name, hname, ?_⟩
  split at h
  · rename_i ht
    rw [if_pos ht]
    obtain ⟨found, hfound, h⟩ := Answer.bind_eq_ok.1 h
    obtain rfl := Answer.pure_eq_ok.1 h
    rw [Table.column_eq_ok hfound]
    exact namedColumn_isFirst t name
  · rename_i ht
    rw [if_neg ht]
    exact searchedColumn_isFirst (List.Subset.refl _) h

/-- The version step puts the version on the column that is selected, and claims that column. -/
structure AddsSelected (c : Convention) (s : Settings) (t : Table) (d : Draft) (o : Option Column)
    (v : Option Property) (d' : Draft) : Prop where
  selects : t.SelectsVersion c (s.normalize t.id) o
  columns_eq : v.map Property.columns = o.map fun col => [col]
  kind_version : ∀ p ∈ v, p.kind = .version
  entity_eq : d'.entity = { d.entity with properties := v.toList, version := v }
  claims_eq : d'.claims = ⟨d.claims.columns ++ o.toList⟩

theorem addsSelected_of_eq_ok {b : Entity} {i : Identifier} {d d' : Draft} {v : Option Property}
    {vs ws : List Warning} (hb : Entity.blank c s t = .ok b)
    (h : identify c s ⟨b, {}⟩ = ⟨.ok i, d, vs⟩) (hv : d.addVersionOf c = ⟨.ok v, d', ws⟩) :
    ∃ o, AddsSelected c s t d o v d' := by
  obtain ⟨o, ho⟩ := isVersioned_of_eq_ok hb
    (Outcome.andThen_eq_ok.2 ⟨i, d, vs, ws, h, hv, rfl⟩)
  obtain ⟨us, hasked⟩ := ho.asked
  have hd : d = ⟨{ b with identifier := d'.entity.identifier }, ⟨t.keyColumns⟩⟩ := by
    cases h.symm.trans hasked
    rfl
  refine ⟨o, versionColumn_selects ho.searched, ?_, fun p hp => ?_, ?_, ?_⟩
  · have hcolumns := ho.columns_eq
    cases v with
    | none =>
      cases o with
      | none => rfl
      | some col => cases hcolumns
    | some p =>
      obtain ⟨col, _, hm⟩ := ho.versioned p rfl
      cases o with
      | none => simp [hm.columns_eq] at hcolumns
      | some col' => simpa using hcolumns
  · obtain ⟨_, _, hm⟩ := ho.versioned p hp
    exact hm.kind_eq
  · rw [hd]
    exact ho.grown
  · rw [hd, ho.claimed, startingClaims, ho.columns_eq]

end Draft

namespace Entity

/-- An entity has its version on the column that is selected for its table and no other one. The
columns outside the primary key that the version does not take are held by scalars and
references. -/
structure HasSelected (c : Convention) (s : Settings) (e : Entity) : Prop where
  selected : ∃ o, e.table.SelectsVersion c (s.normalize e.table.id) o ∧
    e.version.map Property.columns = o.map fun col => [col]
  only : e.ofKinds [.version] = e.version.toList
  others : ∀ col ∈ e.table.columns, ¬ col.isAmong e.table.keyColumns →
    (∀ p ∈ e.version, ¬ col.isAmong p.columns) →
    ∃ p ∈ e.scalars ++ e.references, col.isAmong p.columns

theorem OwnsColumns.held_of_left {e : Entity} (h : e.OwnsColumns) {col : Column}
    (hcol : col ∈ e.table.columns) (hkey : ¬ col.isAmong e.table.keyColumns)
    (hversion : ∀ p ∈ e.version, ¬ col.isAmong p.columns) :
    ∃ p ∈ e.scalars ++ e.references, col.isAmong p.columns := by
  by_cases hheld : ∃ p ∈ e.references, col.isAmong p.columns
  · obtain ⟨p, hp, hamong⟩ := hheld
    exact ⟨p, List.mem_append_right _ hp, hamong⟩
  · have hfree : ∀ p ∈ e.references, ¬ col.isAmong p.columns :=
      fun p hp hamong => hheld ⟨p, hp, hamong⟩
    obtain ⟨p, hp, hamong⟩ := (h.scalar_iff col hcol).2 ⟨hkey, hversion, hfree⟩
    exact ⟨p, List.mem_append_left _ hp, hamong⟩

end Entity

namespace Registry
variable {r : Registry} {e : Entity}

theorem hasSelected_of_ofSchema (h : ofSchema c s schema = .ok r) (he : e ∈ r.entities) :
    e.HasSelected c s := by
  obtain ⟨o, ho, hcolumns⟩ := version_columns h he
  obtain ⟨_, hall⟩ := ofSchema_eq_ok h
  obtain ⟨t, _, v, ks, refs, scs, colls, hd⟩ := hall.exists_left he
  refine ⟨⟨o, Draft.versionColumn_selects ho, hcolumns⟩, ?_, fun col hcol hkey hversion => ?_⟩
  · rw [hd.version_eq]
    simpa using hd.ofKinds_eq [.version]
  · exact hd.ownsColumns.held_of_left hcol hkey hversion

/-- Whenever the version step over a table succeeds, which it does under a total convention, it puts
the version on the column that is selected; and so it is for the entities of every run. -/
theorem selects_versions (c : Convention) (s : Settings) :
    (∀ t b i d vs, Entity.blank c s t = .ok b → Draft.identify c s ⟨b, {}⟩ = ⟨.ok i, d, vs⟩ →
      (∀ v d' ws, d.addVersionOf c = ⟨.ok v, d', ws⟩ → ∃ o, Draft.AddsSelected c s t d o v d') ∧
        (c.IsTotal → t.IsTyped → ∃ v d' ws, d.addVersionOf c = ⟨.ok v, d', ws⟩)) ∧
    ∀ schema r, ofSchema c s schema = .ok r → ∀ e ∈ r.entities, e.HasSelected c s := by
  refine ⟨fun t b i d vs hb h => ⟨fun v d' ws hv => ?_, fun hc ht => ?_⟩, fun schema r h e he => ?_⟩
  · exact Draft.addsSelected_of_eq_ok hb h hv
  · obtain ⟨v, d', ws, hok, _⟩ := Draft.addVersionOf_reaches hc (Draft.identify_isReady hc ht hb h)
    exact ⟨v, d', ws, hok⟩
  · exact hasSelected_of_ofSchema h he

end Registry

def Table.drafts : Table where
  id := { name := "drafts" }
  columns := [{ name := "id" }, { name := "stamp", sqlType := "timestamp" },
    { name := "revision", sqlType := "integer" }]
  primaryKey := some .ofId
  foreignKeys := []
  comment := .null
  names_plain := by decide
  names_nodup := by decide
  key_columns := by decide
  foreign_owner := by decide
  foreign_columns := by decide

/-- A table of which all columns are meant for versions: one is the key, and one is of a type that
does not count. -/
def Table.revisions : Table where
  id := { name := "revisions" }
  columns := [{ name := "id" }, { name := "label" }, { name := "stamp", sqlType := "timestamp" },
    { name := "changed", sqlType := "timestamp" }]
  primaryKey := some .ofId
  foreignKeys := []
  comment := .null
  names_plain := by decide
  names_nodup := by decide
  key_columns := by decide
  foreign_owner := by decide
  foreign_columns := by decide

def Schema.history : Schema where
  tables := [.customers, .orders, .drafts, .revisions]
  ids_plain := by decide
  ids_nodup := by decide
  targets_plain := by decide
  targets_known := by decide

def Convention.counting : Convention := { plain with
  isVersionColumn := fun _ _ => .ok true
  lockColumn := fun id => .ok (if id.name.same "revisions" then .null else "revision") }

theorem Convention.counting_isTotal : counting.IsTotal :=
  { plain_isTotal with
    isVersionColumn := fun _ _ _ _ => ⟨true, rfl, trivial⟩
    lockColumn := fun id _ => ⟨_, rfl, by split <;> decide⟩ }

namespace Registry

/-- The customers and the orders do not have the column that is named, and the orders do not fall
back on the version that they have. -/
theorem selects_versions_history :
    (∀ t ∈ Schema.history.tables, ∃ b i d vs o v d' ws, Entity.blank .counting {} t = .ok b ∧
      Draft.identify .counting {} ⟨b, {}⟩ = ⟨.ok i, d, vs⟩ ∧
      d.addVersionOf .counting = ⟨.ok v, d', ws⟩ ∧ Draft.AddsSelected .counting {} t d o v d') ∧
    ∃ r, ofSchema .counting {} .history = .ok r ∧
      (r.entities.map fun e => e.version.map Property.name) =
        [none, none, some (.text "revision"), some (.text "stamp")] ∧
      ∀ e ∈ r.entities, e.HasSelected .counting {} := by
  obtain ⟨hstep, hrun⟩ := selects_versions .counting {}
  constructor
  · intro t ht
    have hidentified : Schema.history.tables.all fun t =>
        (Entity.blank .counting {} t).toOption.any fun b =>
          (Draft.identify .counting {} ⟨b, {}⟩).answer.toOption.any fun _ => true := by decide
    have htyped : ∀ t ∈ Schema.history.tables, t.IsTyped := by decide
    obtain ⟨b, hb, hanswer⟩ := exists_ok_of_toOption_any (List.all_eq_true.1 hidentified t ht)
    obtain ⟨i, d, vs, ho, _⟩ := Outcome.exists_ok_of_answer_any hanswer
    obtain ⟨hselects, hsucceeds⟩ := hstep t b i d vs hb ho
    obtain ⟨v, d', ws, hv⟩ := hsucceeds Convention.counting_isTotal (htyped t ht)
    obtain ⟨o, hadds⟩ := hselects v d' ws hv
    exact ⟨b, i, d, vs, o, v, d', ws, hb, ho, hv, hadds⟩
  · have hresult : (ofSchema .counting {} .history).toOption.any fun r =>
        (r.entities.map fun e => e.version.map Property.name) =
          [none, none, some (.text "revision"), some (.text "stamp")] := by decide
    obtain ⟨r, h, hversions⟩ := exists_ok_of_toOption_any hresult
    exact ⟨r, h, of_decide_eq_true hversions, hrun _ r h⟩

end Registry

/-- A lock column that is named for the table is of a type that counts versions, if the table has
it. -/
def Convention.NamesUsable (c : Convention) (id : TableId) (t : Table) : Prop :=
  ∀ name, c.lockColumn id = .ok name → name.truthy → ∀ col ∈ t.columns, col.name.same name →
    ∃ type, c.logicalType id col false = .ok type ∧ LogicalType.countsVersions type

namespace Registry
variable {r : Registry} {e : Entity} {p : Property}

theorem exists_version_column (h : ofSchema c s schema = .ok r) (he : e ∈ r.entities)
    (hp : p ∈ e.version) : ∃ col, e.table.SelectsVersion c (s.normalize e.table.id) (some col) ∧
      c.logicalType (s.normalize e.table.id) col false = .ok p.type := by
  obtain ⟨⟨o, ho, hcolumns⟩, _, _⟩ := hasSelected_of_ofSchema h he
  obtain ⟨_, hall⟩ := ofSchema_eq_ok h
  obtain ⟨t, _, v, ks, refs, scs, colls, hd⟩ := hall.exists_left he
  obtain ⟨_, hcompletes, _⟩ := hd.completed
  obtain ⟨col, _, hm⟩ := hcompletes.versioned p (hd.version_eq ▸ hp)
  rw [Option.mem_def.1 hp, Option.map_some, hm.columns_eq] at hcolumns
  obtain ⟨col', rfl, hcol⟩ := Option.map_eq_some_iff.1 hcolumns.symm
  obtain rfl : col' = col := List.singleton_inj.1 hcol
  rw [hd.table_eq] at ho ⊢
  exact ⟨col', ho, hm.logicalType_eq⟩

/-- The version of an entity has a type that counts versions, unless its column is named as lock
column without being of such a type. -/
theorem version_counts_iff (h : ofSchema c s schema = .ok r) (he : e ∈ r.entities)
    (hp : p ∈ e.version) : LogicalType.countsVersions p.type ↔
      c.NamesUsable (s.normalize e.table.id) e.table := by
  obtain ⟨col, ⟨name, hname, hselects⟩, htype⟩ := exists_version_column h he hp
  constructor
  · intro hcounts name' hname' ht col' hcol' hsame'
    obtain rfl : name = name' := Except.ok.inj (hname.symm.trans hname')
    rw [if_pos ht] at hselects
    obtain ⟨hcol, hsame, _⟩ := hselects.mem
    have hkey := (Document.same_iff.1 hsame').trans (Document.same_iff.1 hsame).symm
    rw [Table.column_ext hcol' hcol hkey]
    exact ⟨p.type, htype, hcounts⟩
  · intro husable
    have hcounts : ∃ type, c.logicalType (s.normalize e.table.id) col false = .ok type ∧
        LogicalType.countsVersions type := by
      by_cases ht : name.truthy
      · rw [if_pos ht] at hselects
        obtain ⟨hcol, hsame, _⟩ := hselects.mem
        exact husable name hname ht col hcol hsame
      · rw [if_neg ht] at hselects
        exact hselects.mem.2.2.2
    obtain ⟨type, htype', hcounts⟩ := hcounts
    rwa [← Except.ok.inj (htype'.symm.trans htype)]

theorem exists_version_of_any {P : Property → Bool}
    (h : (ofSchema c s schema).toOption.any fun r =>
      r.entities.any fun e => e.version.toList.any P) :
    ∃ r, ofSchema c s schema = .ok r ∧ ∃ e ∈ r.entities, ∃ p ∈ e.version, P p := by
  obtain ⟨r, hr, hany⟩ := exists_ok_of_toOption_any h
  obtain ⟨e, he, hversion⟩ := List.any_eq_true.1 hany
  obtain ⟨p, hp, hfound⟩ := List.any_eq_true.1 hversion
  exact ⟨r, hr, e, he, p, Option.mem_toList.1 hp, hfound⟩

/-- The revision of the drafts counts versions, and so does the column that is named for them. -/
theorem version_counts_iff_history : ∃ r, ofSchema .counting {} .history = .ok r ∧
    ∃ e ∈ r.entities, ∃ p ∈ e.version, p.name = .text "revision" ∧
      LogicalType.countsVersions p.type ∧
      Convention.counting.NamesUsable (Settings.normalize {} e.table.id) e.table := by
  have hresult : (ofSchema .counting {} .history).toOption.any fun r =>
      r.entities.any fun e => e.version.toList.any fun p =>
        p.name = .text "revision" && LogicalType.countsVersions p.type := by decide
  obtain ⟨r, h, e, he, p, hp, hboth⟩ := exists_version_of_any hresult
  obtain ⟨hname, hcounts⟩ := Bool.and_eq_true_iff.1 hboth
  exact ⟨r, h, e, he, p, hp, of_decide_eq_true hname, hcounts,
    (version_counts_iff h he hp).1 hcounts⟩

end Registry

def Table.noted : Table where
  id := { name := "orders" }
  columns := [{ name := "id" }, { name := "note" }]
  primaryKey := some .ofId
  foreignKeys := []
  comment := .null
  names_plain := by decide
  names_nodup := by decide
  key_columns := by decide
  foreign_owner := by decide
  foreign_columns := by decide

def Schema.noted : Schema where
  tables := [.noted]
  ids_plain := by decide
  ids_nodup := by decide
  targets_plain := by decide
  targets_known := by decide

def Convention.noting : Convention := { plain with lockColumn := fun _ => .ok "note" }

/-- The notes become the version although texts do not count versions. -/
theorem Registry.not_countsVersions_noted : ¬ ∀ r, ofSchema .noting {} .noted = .ok r →
    ∀ e ∈ r.entities, ∀ p ∈ e.version, LogicalType.countsVersions p.type := by
  have hresult : (ofSchema .noting {} .noted).toOption.any fun r =>
      r.entities.any fun e => e.version.toList.any fun p =>
        !LogicalType.countsVersions p.type := by decide
  obtain ⟨r, h, e, he, p, hp, hnot⟩ := exists_version_of_any hresult
  intro hall
  simp [hall r h e he p hp] at hnot

end EntityMapping
