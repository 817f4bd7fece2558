import EntityMapping.Proofs.Relational.WellFormed

/-! # The column pairs of a foreign key

A foreign key pairs each of its columns with a column of the table that it refers to, or none of
them. The columns are those that it records, else those of the primary key if there are as many.
Within a schema they are columns of the referenced table.
-/
namespace EntityMapping

variable {schema : Schema} {t : Table} {f : ForeignKey} {r : Option Table}

namespace ForeignKey

/-- The table has a primary key of as many columns as the foreign key. -/
def Matches (f : ForeignKey) (t : Table) : Prop :=
  ∃ k ∈ t.primaryKey, k.columns.length = f.columns.length

/-- The names that a foreign key refers to: those that it records, else those of the primary key of
the referenced table if it matches. -/
inductive RefersTo (f : ForeignKey) (r : Option Table) : List Name → Prop
  | recorded (h : f.targetColumns ≠ []) : f.RefersTo r f.targetColumns
  | primaryKey {t : Table} {k : PrimaryKey} (h : f.targetColumns = []) (ht : t ∈ r)
    (hk : k ∈ t.primaryKey) (hlength : k.columns.length = f.columns.length) :
    f.RefersTo r (Column.names k.columns)

/-- The pairs of a foreign key and the table that it refers to, if there is one. -/
structure IsPaired (f : ForeignKey) (r : Option Table) : Prop where
  locals_eq : (f.pairs r).map Prod.fst = f.columnNames
  all_or_none : (∀ p ∈ f.pairs r, p.2 = none) ∨ ∀ p ∈ f.pairs r, p.2.isSome
  known : ∀ t ∈ r, ∀ p ∈ f.pairs r, ∀ n ∈ p.2, ∃ c ∈ t.columns, c.name.same n
  none_iff : (∀ p ∈ f.pairs r, p.2 = none) ↔ f.targetColumns = [] ∧ ∀ t ∈ r, ¬ f.Matches t
  recorded : f.targetColumns ≠ [] → (f.pairs r).map Prod.snd = f.targetColumns.map some
  primaryKey : f.targetColumns = [] → ∀ t ∈ r, f.Matches t → ∃ k ∈ t.primaryKey,
    (f.pairs r).map Prod.snd = (Column.names k.columns).map some

theorem RefersTo.length_eq {names : List Name} (h : f.RefersTo r names) :
    names.length = f.columnNames.length := by
  rw [columnNames, Column.names, List.length_map]
  cases h with
  | recorded h => exact f.paired.resolve_left h
  | primaryKey _ _ _ hlength => rw [Column.names, List.length_map, hlength]

theorem RefersTo.pairs_eq {names : List Name} (h : f.RefersTo r names) :
    f.pairs r = f.columnNames.zip (names.map some) := by
  have hlength : names.length = f.columns.length := by
    rw [h.length_eq, columnNames, Column.names, List.length_map]
  cases h with
  | recorded h =>
    have hsome : ¬ f.targetColumns.isEmpty = true := by rwa [List.isEmpty_iff]
    rw [pairs, if_neg hsome, if_pos hlength]
  | @primaryKey t k h ht hk _ =>
    have hkey : t.keyColumns = k.columns := by
      rw [Table.keyColumns, Option.mem_def.1 hk]
      rfl
    obtain rfl := Option.mem_def.1 ht
    rw [pairs, h, if_pos List.isEmpty_nil, Option.map_some, Option.getD_some, hkey, if_pos hlength]

/-- A foreign key that refers to nothing has no second names. -/
theorem pairs_eq_of_not_matches (h : f.targetColumns = []) (hr : ∀ t ∈ r, ¬ f.Matches t) :
    f.pairs r = f.columnNames.map fun n => (n, none) := by
  have hlength : (Column.names ((r.map Table.keyColumns).getD [])).length ≠ f.columns.length := by
    rw [Column.names, List.length_map]
    intro heq
    have hpos : 0 < f.columns.length := List.length_pos_iff.2 f.columns_ne
    cases r with
    | none =>
      rw [← heq] at hpos
      exact absurd hpos (Nat.lt_irrefl 0)
    | some t =>
      rw [Option.map_some, Option.getD_some] at heq
      cases hk : t.primaryKey with
      | none =>
        rw [← heq, Table.keyColumns, hk] at hpos
        exact absurd hpos (Nat.lt_irrefl 0)
      | some k =>
        rw [Table.keyColumns, hk] at heq
        exact hr t rfl ⟨k, hk, heq⟩
  rw [pairs, h, if_pos List.isEmpty_nil, if_neg hlength]

theorem refersTo_or (f : ForeignKey) (r : Option Table) :
    (∃ names, f.RefersTo r names) ∨ f.targetColumns = [] ∧ ∀ t ∈ r, ¬ f.Matches t := by
  by_cases h : f.targetColumns = []
  · by_cases hr : ∃ t ∈ r, f.Matches t
    · obtain ⟨t, ht, k, hk, hlength⟩ := hr
      exact .inl ⟨_, .primaryKey h ht hk hlength⟩
    · exact .inr ⟨h, fun t ht hmatch => hr ⟨t, ht, hmatch⟩⟩
  · exact .inl ⟨_, .recorded h⟩

namespace RefersTo
variable {names : List Name}

theorem locals_eq (h : f.RefersTo r names) : (f.pairs r).map Prod.fst = f.columnNames := by
  rw [h.pairs_eq, List.map_fst_zip]
  exact Nat.le_of_eq (by rw [List.length_map, h.length_eq])

theorem targets_eq (h : f.RefersTo r names) : (f.pairs r).map Prod.snd = names.map some := by
  rw [h.pairs_eq, List.map_snd_zip]
  exact Nat.le_of_eq (by rw [List.length_map, h.length_eq])

theorem mem_of_pairs (h : f.RefersTo r names) {p : Name × Option Name} (hp : p ∈ f.pairs r) :
    ∃ n ∈ names, p.2 = some n := by
  have hmem : p.2 ∈ names.map some := h.targets_eq ▸ List.mem_map_of_mem hp
  obtain ⟨n, hn, heq⟩ := List.mem_map.1 hmem
  exact ⟨n, hn, heq.symm⟩

theorem exists_pair (h : f.RefersTo r names) : ∃ p ∈ f.pairs r, p.2 ≠ none := by
  have hne : f.pairs r ≠ [] := by
    intro hnil
    have hlocals := h.locals_eq
    rw [hnil, columnNames, Column.names] at hlocals
    exact f.columns_ne (List.map_eq_nil_iff.1 hlocals.symm)
  obtain ⟨p, hp⟩ := List.exists_mem_of_ne_nil _ hne
  obtain ⟨n, _, hn⟩ := h.mem_of_pairs hp
  exact ⟨p, hp, by rw [hn]; exact Option.some_ne_none n⟩

end RefersTo

/-- The pairs of a key whose names are columns of the table that they refer to. -/
theorem isPaired (hknown : ∀ t ∈ r, ∀ names, f.RefersTo r names →
    ∀ n ∈ names, ∃ c ∈ t.columns, c.name.same n) : f.IsPaired r := by
  rcases f.refersTo_or r with ⟨names, h⟩ | ⟨hempty, hr⟩
  · have hsome : ¬ ∀ p ∈ f.pairs r, p.2 = none := by
      intro hnone
      obtain ⟨p, hp, hne⟩ := h.exists_pair
      exact hne (hnone p hp)
    refine ⟨h.locals_eq, .inr fun p hp => ?_, fun t ht p hp n hn => ?_, ?_, fun hne => ?_,
      fun hempty t ht hmatch => ?_⟩
    · obtain ⟨n, _, hn⟩ := h.mem_of_pairs hp
      rw [hn]
      rfl
    · obtain ⟨m, hm, heq⟩ := h.mem_of_pairs hp
      obtain rfl := Option.some.inj (heq.symm.trans (Option.mem_def.1 hn))
      exact hknown t ht names h m hm
    · refine ⟨fun hnone => absurd hnone hsome, fun ⟨hempty, hr⟩ => ?_⟩
      cases h with
      | recorded hne => exact absurd hempty hne
      | primaryKey _ ht hk hlength => exact absurd ⟨_, hk, hlength⟩ (hr _ ht)
    · exact (RefersTo.recorded hne).targets_eq
    · obtain ⟨k, hk, hlength⟩ := hmatch
      exact ⟨k, hk, (RefersTo.primaryKey hempty ht hk hlength).targets_eq⟩
  · have hpairs := pairs_eq_of_not_matches hempty hr
    have hnone : ∀ p ∈ f.pairs r, p.2 = none := by
      rw [hpairs]
      exact List.forall_mem_map.2 fun _ _ => rfl
    refine ⟨?_, .inl hnone, fun t _ p hp n hn => ?_, ⟨fun _ => ⟨hempty, hr⟩, fun _ => hnone⟩,
      fun hne => absurd hempty hne, fun _ t ht hmatch => absurd hmatch (hr t ht)⟩
    · rw [hpairs, List.map_map]
      exact List.map_id _
    · rw [hnone p hp] at hn
      cases hn

end ForeignKey

namespace Schema

theorem table_target (hf : f ∈ schema.foreignKeys) :
    schema.table f.target = .ok (schema.table? f.target) := by
  obtain ⟨t, ht, hft⟩ := List.mem_flatMap.1 hf
  rw [table, TableId.asKey, if_pos (schema.targets_plain t ht f hft)]
  rfl

/-- What a foreign key refers to in a table of the schema is a column of it. -/
theorem known_of_refersTo (hf : f ∈ schema.foreignKeys) {r : Table}
    (hr : r ∈ schema.table? f.target) {names : List Name}
    (h : f.RefersTo (schema.table? f.target) names) :
    ∀ n ∈ names, ∃ c ∈ r.columns, c.name.same n := by
  obtain ⟨t, ht, hft⟩ := List.mem_flatMap.1 hf
  obtain ⟨hmem, hid⟩ := mem_of_table? (Option.mem_def.1 hr)
  intro n hn
  cases h with
  | recorded _ =>
    exact Column.find?_isSome_iff.1 (schema.targets_known t ht f hft r hmem hid n hn)
  | @primaryKey r' k _ hr' hk _ =>
    obtain rfl := Option.some.inj ((Option.mem_def.1 hr').symm.trans (Option.mem_def.1 hr))
    obtain ⟨c, hc, rfl⟩ := List.mem_map.1 hn
    obtain ⟨d, hd, hname, _⟩ :=
      (Column.own?_isSome_iff r'.names_nodup).1 (r'.key_columns k hk c hc)
    exact ⟨d, hd, hname⟩

theorem IsTyped.isText_of_refersTo (hs : schema.IsTyped) (hf : f ∈ schema.foreignKeys)
    {names : List Name} (h : f.RefersTo (schema.table? f.target) names) :
    ∀ n ∈ names, n.IsText := by
  intro n hn
  cases h with
  | recorded _ => exact (hs.foreignKey hf).2.2.2.1 n hn
  | @primaryKey r k _ hr hk _ =>
    obtain ⟨c, hc, rfl⟩ := List.mem_map.1 hn
    have hcolumns : c ∈ r.keyColumns := by
      rw [Table.keyColumns, Option.mem_def.1 hk]
      exact hc
    exact ((hs r (mem_of_table? (Option.mem_def.1 hr)).1).2.2.1 c hcolumns).1

/-- A foreign key of a schema is paired with the table that it refers to; where the schema is typed,
no name is missing among those that are given. -/
theorem foreignKey_isPaired (hf : f ∈ schema.foreignKeys) :
    ∃ r, schema.table f.target = .ok r ∧ f.IsPaired r ∧
      (schema.IsTyped → ∀ p ∈ f.pairs r, ∀ n ∈ p.2, n.IsText) := by
  refine ⟨schema.table? f.target, table_target hf, ?_, fun hs p hp n hn => ?_⟩
  · exact ForeignKey.isPaired fun r hr names h => known_of_refersTo hf hr h
  · rcases f.refersTo_or (schema.table? f.target) with ⟨names, h⟩ | ⟨hempty, hr⟩
    · obtain ⟨m, hm, heq⟩ := h.mem_of_pairs hp
      obtain rfl := Option.some.inj (heq.symm.trans (Option.mem_def.1 hn))
      exact hs.isText_of_refersTo hf h m hm
    · rw [ForeignKey.pairs_eq_of_not_matches hempty hr] at hp
      obtain ⟨_, _, rfl⟩ := List.mem_map.1 hp
      cases hn

/-- The key of an order is paired with the primary key of the customers. -/
theorem foreignKey_isPaired_shop : ForeignKey.ofOrder ∈ Schema.shop.foreignKeys ∧
    ∃ r, Schema.shop.table ForeignKey.ofOrder.target = .ok r ∧ ForeignKey.ofOrder.IsPaired r ∧
      ForeignKey.ofOrder.pairs r = [(.text "customer", some (.text "id"))] := by
  have hf : ForeignKey.ofOrder ∈ Schema.shop.foreignKeys := by decide
  obtain ⟨r, hr, hpaired, _⟩ := foreignKey_isPaired hf
  refine ⟨hf, r, hr, hpaired, ?_⟩
  have hfound : Schema.shop.table ForeignKey.ofOrder.target = .ok (some .customers) := by decide
  obtain rfl := Except.ok.inj (hfound.symm.trans hr)
  decide

end Schema
end EntityMapping
