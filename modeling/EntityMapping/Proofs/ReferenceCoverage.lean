import EntityMapping.Proofs.ColumnOwnership

/-! # Which foreign keys are lost

Unless basic composites are preferred, a foreign key is bound if one of its columns is free when
its turn comes: neither the primary key nor the version nor a reference along an earlier key has
claimed it. A key over the columns of earlier ones is lost with them.
-/
namespace EntityMapping
open Column

variable {c : Convention} {s : Settings} {schema : Schema}

section
variable {claims : Claims} {fs : List ForeignKey} {ks : List (ForeignKey × Bool)}

theorem boundKeys_append_eq_ok {gs : List ForeignKey}
    (h : boundKeys c s schema claims (fs ++ gs) = .ok ks) :
    ∃ ks₁ ks₂, boundKeys c s schema claims fs = .ok ks₁ ∧
      boundKeys c s schema (claims.insertAll (keyedColumns ks₁)) gs = .ok ks₂ ∧
      ks = ks₁ ++ ks₂ := by
  induction fs generalizing claims ks with
  | nil => exact ⟨[], ks, rfl, h, rfl⟩
  | cons f fs ih =>
    rcases boundKeys_cons_eq_ok.1 h with ⟨m, ls, hin, htr, hls, rfl⟩ | ⟨htr, hks⟩
    · obtain ⟨ks₁, ks₂, h₁, h₂, rfl⟩ := ih hls
      refine ⟨(f, m) :: ks₁, ks₂, boundKeys_cons_eq_ok.2 (.inl ⟨m, ks₁, hin, htr, h₁, rfl⟩), ?_,
        rfl⟩
      rwa [keyedColumns_cons, Claims.insertAll_append]
    · obtain ⟨ks₁, ks₂, h₁, h₂, rfl⟩ := ih hks
      exact ⟨ks₁, ks₂, boundKeys_cons_eq_ok.2 (.inr ⟨htr, h₁⟩), h₂, rfl⟩

theorem Claims.hasAll_insertAll {cs ds : List Column} (h : claims.hasAll cs) :
    (claims.insertAll ds).hasAll cs := by
  rw [hasAll_iff] at h ⊢
  intro col hcol
  exact mem_nameKeys_insertAll.2 (.inr (h col hcol))

theorem Claims.hasAll_insertAll_self (cs : List Column) : (claims.insertAll cs).hasAll cs := by
  rw [hasAll_iff]
  intro col hcol
  exact mem_nameKeys_insertAll.2 (.inl (List.mem_map_of_mem hcol))

theorem not_hasAll_of_mem_boundKeys (hs : s.basicComposites = false)
    (h : boundKeys c s schema claims fs = .ok ks) {k : ForeignKey × Bool} (hk : k ∈ ks) :
    claims.hasAll k.1.columns = false := by
  induction fs generalizing claims ks with
  | nil =>
    obtain rfl : [] = ks := Answer.pure_eq_ok.1 h
    cases hk
  | cons f fs ih =>
    rcases boundKeys_cons_eq_ok.1 h with ⟨m, ls, _, htr, hls, rfl⟩ | ⟨_, hks⟩
    · rcases List.mem_cons.1 hk with rfl | hk
      · obtain ⟨skips, _, htr⟩ := treatment_eq_ok.1 htr
        cases hall : claims.hasAll f.columns with
        | false => rfl
        | true => cases skips <;> simp [hs, hall] at htr
      · have hlater := ih hls hk
        rw [← Bool.not_eq_true] at hlater ⊢
        exact mt Claims.hasAll_insertAll hlater
    · exact ih hks hk

theorem treated_of_mem_boundKeys (h : boundKeys c s schema claims fs = .ok ks)
    {k : ForeignKey × Bool} (hk : k ∈ ks) :
    k.1 ∈ fs ∧ schema.hasTable k.1.target ∧ c.skipsReference k.1 = .ok false := by
  induction fs generalizing claims ks with
  | nil =>
    obtain rfl : [] = ks := Answer.pure_eq_ok.1 h
    cases hk
  | cons f fs ih =>
    rcases boundKeys_cons_eq_ok.1 h with ⟨m, ls, hin, htr, hls, rfl⟩ | ⟨_, hks⟩
    · rcases List.mem_cons.1 hk with rfl | hk
      · obtain ⟨skips, hskips, htr⟩ := treatment_eq_ok.1 htr
        cases skips with
        | false => exact ⟨List.mem_cons_self, hin, hskips⟩
        | true => simp at htr
      · obtain ⟨hmem, hrest⟩ := ih hls hk
        exact ⟨List.mem_cons_of_mem _ hmem, hrest⟩
    · obtain ⟨hmem, hrest⟩ := ih hks hk
      exact ⟨List.mem_cons_of_mem _ hmem, hrest⟩

theorem hasAll_of_mem (h : boundKeys c s schema claims fs = .ok ks) {f : ForeignKey} (hf : f ∈ fs)
    (hin : schema.hasTable f.target) (hskip : c.skipsReference f = .ok false) :
    (claims.insertAll (keyedColumns ks)).hasAll f.columns := by
  induction fs generalizing claims ks with
  | nil => cases hf
  | cons g fs ih =>
    rcases boundKeys_cons_eq_ok.1 h with ⟨m, ls, _, _, hls, rfl⟩ | ⟨htr, hks⟩
    · rw [keyedColumns_cons, Claims.insertAll_append]
      rcases List.mem_cons.1 hf with rfl | hf
      · exact Claims.hasAll_insertAll (Claims.hasAll_insertAll_self _)
      · exact ih hls hf
    · rcases List.mem_cons.1 hf with rfl | hf
      · obtain ⟨tr, htr, hcases⟩ := htr hin
        obtain ⟨skips, hskips, htr⟩ := treatment_eq_ok.1 htr
        obtain rfl : skips = false := Except.ok.inj (hskips.symm.trans hskip)
        apply Claims.hasAll_insertAll
        by_contra hall
        simp [hall] at htr
        simp [htr] at hcases
      · exact ih hks hf

/-- The first key is bound unless all its columns are claimed and basic composites are not
preferred. -/
theorem mem_boundKeys_cons_iff {f : ForeignKey}
    (h : boundKeys c s schema claims (f :: fs) = .ok ks) (hin : schema.hasTable f.target)
    (hskip : c.skipsReference f = .ok false) :
    (∃ m, (f, m) ∈ ks) ↔ s.basicComposites = true ∨ claims.hasAll f.columns = false := by
  constructor
  · rintro ⟨m, hm⟩
    cases hs : s.basicComposites with
    | true => exact .inl rfl
    | false => exact .inr (not_hasAll_of_mem_boundKeys hs h hm)
  · intro hbound
    rcases boundKeys_cons_eq_ok.1 h with ⟨m, ls, _, _, _, rfl⟩ | ⟨htr, _⟩
    · exact ⟨m, List.mem_cons_self⟩
    · obtain ⟨tr, htr, hcases⟩ := htr hin
      obtain ⟨skips, hskips, htr⟩ := treatment_eq_ok.1 htr
      obtain rfl : skips = false := Except.ok.inj (hskips.symm.trans hskip)
      rcases hbound with hs | hall
      · cases hall : claims.hasAll f.columns <;> simp_all
      · simp_all

end

def Table.keysBefore (t : Table) (f : ForeignKey) : List ForeignKey :=
  t.foreignKeys.takeWhile fun g => g ≠ f

theorem Table.foreignKeys_split {t : Table} {f : ForeignKey} (hf : f ∈ t.foreignKeys) :
    ∃ after, t.foreignKeys = t.keysBefore f ++ f :: after ∧ f ∉ t.keysBefore f := by
  obtain ⟨before, after, hsplit, hnew⟩ := List.eq_append_cons_of_mem hf
  have hbefore : t.keysBefore f = before := by
    have hne : ∀ g ∈ before, decide (g ≠ f) = true := by
      intro g hg
      rw [decide_eq_true_iff]
      rintro rfl
      exact hnew hg
    rw [Table.keysBefore, hsplit, List.takeWhile_append_of_pos hne]
    simp
  rw [hbefore]
  exact ⟨after, hsplit, hnew⟩

namespace Entity

/-- A column that neither the primary key nor the version nor a reference along one of the keys
holds. -/
def IsOpen (e : Entity) (keys : List ForeignKey) (col : Column) : Prop :=
  ¬ col.isAmong e.table.keyColumns ∧ (∀ p ∈ e.version, ¬ col.isAmong p.columns) ∧
    ∀ p ∈ e.references, ∀ g ∈ keys, p.foreignKey? = some g → ¬ col.isAmong p.columns

def HasReferenceAlong (e : Entity) (f : ForeignKey) : Prop :=
  ∃ p ∈ e.references, p.foreignKey? = some f

/-- The key is bound, or it is left to an identifier that takes all its columns. -/
def KeepsKey (s : Settings) (e : Entity) (f : ForeignKey) : Prop :=
  e.HasReferenceAlong f ∨
    s.basicComposites = false ∧ ∀ col ∈ f.columns, col.isAmong e.table.keyColumns

instance (e : Entity) (f : ForeignKey) : Decidable (e.HasReferenceAlong f) :=
  inferInstanceAs (Decidable (∃ p ∈ e.references, _))

instance (s : Settings) (e : Entity) (f : ForeignKey) : Decidable (e.KeepsKey s f) :=
  inferInstanceAs (Decidable (_ ∨ _))

end Entity

namespace Derives
variable {r : Registry} {t : Table} {v : Option Property} {ks ks₁ ks₂ : List (ForeignKey × Bool)}
  {refs scs colls : List Property} {e : Entity} {f : ForeignKey} {before after : List ForeignKey}

theorem hasReferenceAlong_iff_mem (h : Derives c s schema r t v ks refs scs colls e) :
    e.HasReferenceAlong f ↔ ∃ m, (f, m) ∈ ks := by
  obtain ⟨d, hd, _⟩ := h.completed
  rw [Entity.HasReferenceAlong, h.references_eq]
  constructor
  · rintro ⟨p, hp, hf⟩
    obtain ⟨k, hk, hr⟩ := hd.referenced.exists_left hp
    obtain rfl : k.1 = f := Option.some.inj (hr.foreignKey?_eq.symm.trans hf)
    exact ⟨k.2, hk⟩
  · rintro ⟨m, hm⟩
    obtain ⟨p, hp, hr⟩ := hd.referenced.exists_right hm
    exact ⟨p, hp, hr.foreignKey?_eq⟩

/-- Unless basic composites are preferred, the references along the keys in front are those that
are bound by then: a key that is bound later was not among them. -/
theorem isAmong_keyedColumns_iff (h : Derives c s schema r t v ks refs scs colls e)
    (hs : s.basicComposites = false)
    (h₁ : boundKeys c s schema (startingClaims t v) before = .ok ks₁)
    (h₂ : boundKeys c s schema ((startingClaims t v).insertAll (keyedColumns ks₁)) after = .ok ks₂)
    (hks : ks = ks₁ ++ ks₂) {col : Column} : col.isAmong (keyedColumns ks₁) ↔
      ∃ p ∈ e.references, ∃ g ∈ before, p.foreignKey? = some g ∧ col.isAmong p.columns := by
  obtain ⟨d, hd, _⟩ := h.completed
  rw [keyedColumns, isAmong_flatMap, h.references_eq]
  constructor
  · rintro ⟨k, hk, hcol⟩
    obtain ⟨p, hp, hr⟩ := hd.referenced.exists_right (hks ▸ List.mem_append_left _ hk)
    exact ⟨p, hp, k.1, (treated_of_mem_boundKeys h₁ hk).1, hr.foreignKey?_eq, by
      rwa [hr.columns_eq]⟩
  · rintro ⟨p, hp, g, hg, hkey, hcol⟩
    obtain ⟨k, hk, hr⟩ := hd.referenced.exists_left hp
    obtain rfl : k.1 = g := Option.some.inj (hr.foreignKey?_eq.symm.trans hkey)
    rw [hr.columns_eq] at hcol
    rw [hks, List.mem_append] at hk
    rcases hk with hk | hk
    · exact ⟨k, hk, hcol⟩
    · obtain ⟨_, hin, hskip⟩ := treated_of_mem_boundKeys h₂ hk
      have hfree := not_hasAll_of_mem_boundKeys hs h₂ hk
      rw [hasAll_of_mem h₁ hg hin hskip] at hfree
      cases hfree

theorem hasAll_iff_not_isOpen (h : Derives c s schema r t v ks refs scs colls e)
    (hs : s.basicComposites = false) (hsplit : t.foreignKeys = before ++ f :: after)
    (h₁ : boundKeys c s schema (startingClaims t v) before = .ok ks₁)
    (h₂ : boundKeys c s schema ((startingClaims t v).insertAll (keyedColumns ks₁)) (f :: after) =
      .ok ks₂) (hks : ks = ks₁ ++ ks₂) :
    ((startingClaims t v).insertAll (keyedColumns ks₁)).hasAll f.columns ↔
      ∀ col ∈ f.columns, ¬ e.IsOpen before col := by
  have hown : ∀ col ∈ t.keyColumns ++ v.toList.flatMap Property.columns ++ keyedColumns ks₁,
      col.isAmong t.columns := by
    intro col hcol
    apply h.claimed_own col
    rw [h.reference_columns, hks, keyedColumns, List.flatMap_append, ← List.append_assoc]
    exact List.mem_append_left _ hcol
  rw [Claims.hasAll_iff]
  refine forall₂_congr fun col hcol => ?_
  have hmem : f ∈ t.foreignKeys := by simp [hsplit]
  have hname := Table.isAmong_iff_name hown (Table.isAmong_of_mem_foreignKey hmem hcol)
  rw [Claims.mem_nameKeys_insertAll, startingClaims, or_comm, ← List.mem_append,
    ← nameKeys_append, ← hname, isAmong_append, isAmong_append, isAmong_flatMap,
    h.isAmong_keyedColumns_iff hs h₁ h₂ hks, Entity.IsOpen, h.table_eq, h.version_eq]
  simp only [Option.mem_toList, Option.mem_def]
  constructor
  · rintro ((hkey | ⟨p, hp, hcol⟩) | ⟨p, hp, g, hg, hkey, hcol⟩) ⟨hk, hv, hr⟩
    · exact hk hkey
    · exact hv p hp hcol
    · exact hr p hp g hg hkey hcol
  · intro hopen
    by_contra hnot
    simp only [not_or, not_exists, not_and] at hnot
    exact hopen ⟨hnot.1.1, hnot.1.2, hnot.2⟩

theorem hasReferenceAlong_iff (h : Derives c s schema r t v ks refs scs colls e)
    (hf : f ∈ t.foreignKeys) (hin : schema.hasTable f.target)
    (hskip : c.skipsReference f = .ok false) : e.HasReferenceAlong f ↔
      s.basicComposites = true ∨ ∃ col ∈ f.columns, e.IsOpen (t.keysBefore f) col := by
  obtain ⟨d, hd, _⟩ := h.completed
  obtain ⟨after, hsplit, hnew⟩ := Table.foreignKeys_split hf
  have hplanned := hd.planned
  rw [hsplit] at hplanned
  obtain ⟨ks₁, ks₂, h₁, h₂, hks⟩ := boundKeys_append_eq_ok hplanned
  have hlater : (∃ m, (f, m) ∈ ks) ↔ ∃ m, (f, m) ∈ ks₂ := by
    refine exists_congr fun m => ?_
    rw [hks, List.mem_append]
    exact or_iff_right fun hm => hnew (treated_of_mem_boundKeys h₁ hm).1
  rw [h.hasReferenceAlong_iff_mem, hlater, mem_boundKeys_cons_iff h₂ hin hskip]
  cases hs : s.basicComposites with
  | true => simp
  | false =>
    rw [← Bool.not_eq_true, h.hasAll_iff_not_isOpen hs hsplit h₁ h₂ hks]
    simp only [not_forall, not_not, exists_prop]

end Derives

namespace Registry

/-- Exactly when a foreign key within the schema that is not left out is bound, and exactly when it
is not lost. -/
theorem keepsKey_iff {r : Registry} (h : ofSchema c s schema = .ok r) {e : Entity}
    (he : e ∈ r.entities) {f : ForeignKey} (hf : f ∈ e.table.foreignKeys)
    (hin : schema.hasTable f.target) (hskip : c.skipsReference f = .ok false) :
    (e.HasReferenceAlong f ↔ s.basicComposites = true ∨
      ∃ col ∈ f.columns, e.IsOpen (e.table.keysBefore f) col) ∧
    (e.KeepsKey s f ↔ s.basicComposites = true ∨
      (∀ col ∈ f.columns, col.isAmong e.table.keyColumns) ∨
      ∃ col ∈ f.columns, e.IsOpen (e.table.keysBefore f) col) := by
  obtain ⟨_, hall⟩ := ofSchema_eq_ok h
  obtain ⟨t, _, v, ks, refs, scs, colls, hd⟩ := hall.exists_left he
  have hbound := hd.hasReferenceAlong_iff (hd.table_eq ▸ hf) hin hskip
  rw [← hd.table_eq] at hbound
  refine ⟨hbound, ?_⟩
  rw [Entity.KeepsKey, hbound]
  cases s.basicComposites with
  | true => simp
  | false =>
    simp only [Bool.false_eq_true, false_or, true_and]
    exact or_comm

/-- The key of the example is bound: nothing in front of it holds its column. -/
theorem keepsKey_shop : ∃ r, ofSchema .plain {} .shop = .ok r ∧ ∃ e ∈ r.entities,
    ForeignKey.ofOrder ∈ e.table.foreignKeys ∧
    (e.HasReferenceAlong .ofOrder ↔ false = true ∨
      ∃ col ∈ ForeignKey.ofOrder.columns, e.IsOpen (e.table.keysBefore .ofOrder) col) ∧
    (e.KeepsKey {} .ofOrder ↔ false = true ∨
      (∀ col ∈ ForeignKey.ofOrder.columns, col.isAmong e.table.keyColumns) ∨
      ∃ col ∈ ForeignKey.ofOrder.columns, e.IsOpen (e.table.keysBefore .ofOrder) col) := by
  have hrun : (ofSchema .plain {} .shop).toOption.any fun r =>
      ∃ e ∈ r.entities, ForeignKey.ofOrder ∈ e.table.foreignKeys := by decide
  obtain ⟨r, h, hfound⟩ := exists_ok_of_toOption_any hrun
  obtain ⟨e, he, hf⟩ := of_decide_eq_true hfound
  exact ⟨r, h, e, he, hf, keepsKey_iff h he hf (by decide) rfl⟩

end Registry

def Table.countries : Table where
  id := { name := "countries" }
  columns := [{ name := "id" }]
  primaryKey := some .ofId
  foreignKeys := []
  comment := .null
  names_plain := by decide
  names_nodup := by decide
  key_columns := by decide
  foreign_owner := by decide
  foreign_columns := by decide

def Table.regions : Table :=
  { Table.countries with id := { name := "regions" }, foreign_owner := by decide }

def ForeignKey.ofTown (target : Name) : ForeignKey where
  table := { name := "towns" }
  target := { name := target }
  columns := [{ name := "place" }]
  columns_ne := by simp
  paired := .inl rfl

def Table.towns : Table where
  id := { name := "towns" }
  columns := [{ name := "id" }, { name := "place" }]
  primaryKey := some .ofId
  foreignKeys := [.ofTown "countries", .ofTown "regions"]
  comment := .null
  names_plain := by decide
  names_nodup := by decide
  key_columns := by decide
  foreign_owner := by decide
  foreign_columns := by decide

/-- Two keys over one column that lead to different tables. -/
def Schema.atlas : Schema where
  tables := [.countries, .regions, .towns]
  ids_plain := by decide
  ids_nodup := by decide
  targets_plain := by decide
  targets_known := by decide

namespace Registry

/-- The column of the second key is no key column, and still the key is lost. -/
theorem not_keepsKey_atlas : ∃ r, ofSchema .plain {} .atlas = .ok r ∧ ∃ e ∈ r.entities,
    ForeignKey.ofTown "regions" ∈ e.table.foreignKeys ∧
    Schema.atlas.hasTable (ForeignKey.ofTown "regions").target ∧
    Convention.plain.skipsReference (.ofTown "regions") = .ok false ∧
    ¬ e.KeepsKey {} (.ofTown "regions") := by
  have hrun : (ofSchema .plain {} .atlas).toOption.any fun r => ∃ e ∈ r.entities,
      ForeignKey.ofTown "regions" ∈ e.table.foreignKeys ∧
      Schema.atlas.hasTable (ForeignKey.ofTown "regions").target ∧
      Convention.plain.skipsReference (.ofTown "regions") = .ok false ∧
      ¬ e.KeepsKey {} (.ofTown "regions") := by decide
  obtain ⟨r, h, hfound⟩ := exists_ok_of_toOption_any hrun
  exact ⟨r, h, of_decide_eq_true hfound⟩

end Registry
end EntityMapping
