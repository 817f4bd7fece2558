import EntityMapping.Proofs.Document
import EntityMapping.Proofs.Outcome
import EntityMapping.Proofs.Relational.Table
import EntityMapping.Relational.Schema
import EntityMapping.Relational.TableId

/-! # Schemas whose values have their kinds

In a typed schema names are texts, a nullability is yes or no, and sizes are numbers or missing.
Keys and identifiers that mean the same are then equal, and all of them can be shown.
-/
namespace EntityMapping
open Document

namespace TableId

def IsTyped (id : TableId) : Prop :=
  id.name.IsText ∧ id.schema.IsOptionalText ∧ id.catalog.IsOptionalText

instance (id : TableId) : Decidable id.IsTyped := inferInstanceAs (Decidable (_ ∧ _))

theorem IsTyped.isPlain {id : TableId} (h : id.IsTyped) : id.isPlain := by
  simp [TableId.isPlain, h.1.isPlain, h.2.1.isPlain, h.2.2.isPlain]

theorem IsTyped.eq_of_key {a b : TableId} (ha : a.IsTyped) (h : a.key = b.key) : a = b := by
  rcases a with ⟨n, s, c⟩
  rcases b with ⟨n', s', c'⟩
  simp only [key, mk.injEq] at h ⊢
  exact ⟨ha.1.eq_of_key h.1, ha.2.1.eq_of_key h.2.1, ha.2.2.eq_of_key h.2.2⟩

theorem dropDefault_isOptionalText {part default : Name} (h : part.IsOptionalText) :
    (dropDefault part default).IsOptionalText := by
  unfold dropDefault
  split
  · exact isOptionalText_null
  · exact h

theorem IsTyped.normalize {id : TableId} (h : id.IsTyped) (s : Settings) :
    (s.normalize id).IsTyped :=
  ⟨h.1, dropDefault_isOptionalText h.2.1, dropDefault_isOptionalText h.2.2⟩

end TableId

theorem Answer.mapM_isOk {α β : Type} {f : α → Answer β} {l : List α}
    (h : ∀ a ∈ l, ∃ b, f a = .ok b) : ∃ bs, l.mapM f = .ok bs := by
  induction l with
  | nil => exact ⟨[], rfl⟩
  | cons a l ih =>
    obtain ⟨b, hb⟩ := h a List.mem_cons_self
    obtain ⟨bs, hbs⟩ := ih fun a ha => h a (List.mem_cons_of_mem _ ha)
    refine ⟨b :: bs, ?_⟩
    rw [List.mapM_cons, hb, hbs]
    rfl

theorem Answer.mapM_eq_map {α β : Type} {f : α → Answer β} {g : α → β} {l : List α}
    (h : ∀ a ∈ l, f a = .ok (g a)) : l.mapM f = .ok (l.map g) := by
  induction l with
  | nil => rfl
  | cons a l ih =>
    rw [List.mapM_cons, h a List.mem_cons_self, ih fun a ha => h a (List.mem_cons_of_mem _ ha)]
    rfl

theorem Answer.forM_eq_ok {α : Type} {f : α → Answer PUnit} {l : List α}
    (h : ∀ a ∈ l, f a = .ok ⟨⟩) : l.forM f = .ok ⟨⟩ := by
  induction l with
  | nil => rfl
  | cons a l ih =>
    obtain ⟨ha, hl⟩ := List.forall_mem_cons.1 h
    rw [List.forM, ha]
    exact ih hl

theorem TableId.IsTyped.text_isOk {id : TableId} (h : id.IsTyped) : ∃ s, id.text = .ok s := by
  have hparts : ∀ d ∈ [id.catalog, id.schema, id.name].filter truthy,
      ∃ s, d.asText .notName = .ok s := by
    intro d hd
    obtain ⟨hd, ht⟩ := List.mem_filter.1 hd
    have hopt : d.IsOptionalText := by
      simp only [List.mem_cons, List.not_mem_nil, or_false] at hd
      rcases hd with rfl | rfl | rfl
      · exact h.2.2
      · exact h.2.1
      · exact h.1.optional
    exact ⟨_, asText_of_isText (hopt.isText ht) _⟩
  obtain ⟨parts, hp⟩ := Answer.mapM_isOk hparts
  exact ⟨".".intercalate parts, by rw [TableId.text, hp]; rfl⟩

namespace Column

def IsTyped (c : Column) : Prop :=
  c.name.IsText ∧ c.sqlType.IsText ∧ c.nullable.IsFlag ∧
    ∀ d ∈ [c.length, c.precision, c.scale], d.IsOptionalNumber

instance (c : Column) : Decidable c.IsTyped := inferInstanceAs (Decidable (_ ∧ _))

theorem IsTyped.eq_of_key {c d : Column} (hc : c.IsTyped) (hd : d.IsTyped) (h : c.key = d.key) :
    c = d := by
  rcases c with ⟨n, t, b, l, p, q⟩
  rcases d with ⟨n', t', b', l', p', q'⟩
  obtain ⟨hn, ht, hb, hsizes⟩ := hc
  obtain ⟨_, _, hb', hsizes'⟩ := hd
  simp only [List.forall_mem_cons] at hsizes hsizes'
  simp only [key, mk.injEq] at h ⊢
  exact ⟨hn.eq_of_key h.1, ht.eq_of_key h.2.1, hb.eq_of_key hb' h.2.2.1,
    hsizes.1.eq_of_key hsizes'.1 h.2.2.2.1, hsizes.2.1.eq_of_key hsizes'.2.1 h.2.2.2.2.1,
    hsizes.2.2.1.eq_of_key hsizes'.2.2.1 h.2.2.2.2.2⟩

end Column

/-- Lists whose entries are determined by their keys are determined by the keys of the entries. -/
theorem eq_of_map_key {α β : Type} {key : α → β} {as bs : List α}
    (h : ∀ a ∈ as, ∀ b ∈ bs, key a = key b → a = b) (hk : as.map key = bs.map key) : as = bs := by
  induction as generalizing bs with
  | nil => exact (List.map_eq_nil_iff.1 hk.symm).symm
  | cons a as ih =>
    cases bs with
    | nil => simp at hk
    | cons b bs =>
      rw [List.map_cons, List.map_cons, List.cons.injEq] at hk
      have hab := h a List.mem_cons_self b List.mem_cons_self hk.1
      have hrest : as = bs := ih (fun x hx y hy =>
        h x (List.mem_cons_of_mem _ hx) y (List.mem_cons_of_mem _ hy)) hk.2
      rw [hab, hrest]

namespace ForeignKey

def IsTyped (f : ForeignKey) : Prop :=
  f.table.IsTyped ∧ f.target.IsTyped ∧ (∀ c ∈ f.columns, c.IsTyped) ∧
    (∀ n ∈ f.targetColumns, n.IsText) ∧ f.name.IsOptionalText

instance (f : ForeignKey) : Decidable f.IsTyped := inferInstanceAs (Decidable (_ ∧ _))

theorem IsTyped.eq_of_same {f g : ForeignKey} (hf : f.IsTyped) (hg : g.IsTyped) (h : f.same g) :
    f = g := by
  have hkey : f.key = g.key := by simpa [same] using h
  rcases f with ⟨t, u, cs, ns, n, _, _⟩
  rcases g with ⟨t', u', cs', ns', n', _, _⟩
  obtain ⟨ht, hu, hcs, hns, hn⟩ := hf
  obtain ⟨_, _, hcs', _, _⟩ := hg
  simp only [key, Prod.mk.injEq] at hkey
  obtain ⟨kt, ku, kcs, kns, kn⟩ := hkey
  simp only [mk.injEq]
  exact ⟨ht.eq_of_key kt, hu.eq_of_key ku,
    eq_of_map_key (fun c hc d hd => (hcs c hc).eq_of_key (hcs' d hd)) kcs,
    eq_of_map_key (fun c hc d _ => (hns c hc).eq_of_key) kns, hn.eq_of_key kn⟩

theorem IsTyped.label_isOk {f : ForeignKey} (h : f.IsTyped) : ∃ s, f.label = .ok s := by
  unfold label
  split
  · exact ⟨_, rfl⟩
  · obtain ⟨names, hn⟩ : ∃ names, f.columns.mapM Column.text = .ok names :=
      Answer.mapM_isOk fun c hc => ⟨_, asText_of_isText (h.2.2.1 c hc).1 _⟩
    rw [hn]
    exact ⟨_, rfl⟩

theorem IsTyped.text_isOk {f : ForeignKey} (h : f.IsTyped) : ∃ s, f.text = .ok s := by
  obtain ⟨table, ht⟩ := h.1.text_isOk
  obtain ⟨label, hl⟩ := h.label_isOk
  obtain ⟨target, hu⟩ := h.2.1.text_isOk
  rw [text, ht, hl, hu]
  exact ⟨_, rfl⟩

end ForeignKey

def Table.IsTyped (t : Table) : Prop :=
  t.id.IsTyped ∧ (∀ c ∈ t.columns, c.IsTyped) ∧ (∀ c ∈ t.keyColumns, c.IsTyped) ∧
    ∀ f ∈ t.foreignKeys, f.IsTyped

instance (t : Table) : Decidable t.IsTyped := inferInstanceAs (Decidable (_ ∧ _))

def Schema.IsTyped (schema : Schema) : Prop := ∀ t ∈ schema.tables, t.IsTyped

instance (schema : Schema) : Decidable schema.IsTyped :=
  inferInstanceAs (Decidable (∀ t ∈ _, _))

theorem Schema.IsTyped.foreignKey {schema : Schema} (hs : schema.IsTyped) {f : ForeignKey}
    (hf : f ∈ schema.foreignKeys) : f.IsTyped := by
  obtain ⟨t, ht, hft⟩ := List.mem_flatMap.1 hf
  exact (hs t ht).2.2.2 f hft

def PrimaryKey.ofId : PrimaryKey where
  columns := [{ name := "id" }]
  columns_ne := by simp

def Table.customers : Table where
  id := { name := "customers" }
  columns := [{ name := "id" }, { name := "name" }]
  primaryKey := some .ofId
  foreignKeys := []
  comment := .null
  names_plain := by decide
  names_nodup := by decide
  key_columns := by decide
  foreign_owner := by decide
  foreign_columns := by decide

def ForeignKey.ofOrder : ForeignKey where
  table := { name := "orders" }
  target := { name := "customers" }
  columns := [{ name := "customer" }]
  columns_ne := by simp
  paired := .inl rfl

def Table.orders : Table where
  id := { name := "orders" }
  columns := [{ name := "id" }, { name := "version", sqlType := "integer" }, { name := "total" },
    { name := "customer" }]
  primaryKey := some .ofId
  foreignKeys := [.ofOrder]
  comment := .null
  names_plain := by decide
  names_nodup := by decide
  key_columns := by decide
  foreign_owner := by decide
  foreign_columns := by decide

/-- Two tables with a foreign key from one to the other. -/
def Schema.shop : Schema where
  tables := [.customers, .orders]
  ids_plain := by decide
  ids_nodup := by decide
  targets_plain := by decide
  targets_known := by decide

example : Schema.shop.IsTyped := by decide

end EntityMapping
