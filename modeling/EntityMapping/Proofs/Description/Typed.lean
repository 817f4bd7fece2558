import EntityMapping.Proofs.Description.PooledRows
import EntityMapping.Proofs.Relational.Typed

/-! # Descriptions whose fields have their kinds

What a description has to list is there, names are texts, and what is optional is a text or nothing.
Of such a description everything can be read, and every table finds the foreign key rows of its
name, which are those of the relationships when no table lists any.
-/
namespace EntityMapping

namespace Document

def IsListOf (P : Document → Prop) (d : Document) : Prop := ∃ ds, d = .list ds ∧ ∀ x ∈ ds, P x

instance {P : Document → Prop} [DecidablePred P] : DecidablePred (IsListOf P)
  | .list ds => decidable_of_iff (∀ x ∈ ds, P x) (by simp [IsListOf])
  | .plain _ => isFalse (by simp [IsListOf])
  | .record _ => isFalse (by simp [IsListOf])

/-- The field lists values with a property, or is not there. -/
def Lists (key : String) (P : Document → Prop) (d : Document) : Prop :=
  ((d.get? key).getD (.list [])).IsListOf P

instance {key : String} {P : Document → Prop} [DecidablePred P] : DecidablePred (Lists key P) :=
  fun _ => inferInstanceAs (Decidable (IsListOf P _))

theorem Lists.entriesAt_eq {key : String} {P : Document → Prop} {d : Document}
    (h : d.Lists key P) : d.entriesAt key = .ok (d.items key) := by
  obtain ⟨ds, hds, _⟩ := h
  cases hget : d.get? key with
  | none =>
    rw [entriesAt, items, hget]
    rfl
  | some v =>
    rw [hget, Option.getD_some] at hds
    rw [entriesAt, items, hget, hds]
    rfl

theorem Lists.mem {key : String} {P : Document → Prop} {d : Document} (h : d.Lists key P)
    {x : Document} (hx : x ∈ d.items key) : P x := by
  obtain ⟨ds, hds, hall⟩ := h
  cases hget : d.get? key with
  | none => simp [items, hget] at hx
  | some v =>
    rw [hget, Option.getD_some] at hds
    rw [items, hget, hds] at hx
    exact hall x hx

theorem required_of_isSome {key : String} {d : Document} (h : (d.get? key).isSome) :
    d.required key = .ok (d.field key) := by
  obtain ⟨v, hget⟩ := Option.isSome_iff_exists.1 h
  rw [required, if_pos (isRecord_of_get? hget), field, hget]
  rfl

theorem isSome_of_field {key : String} {P : Document → Prop} {d : Document} (hnull : ¬ P .null)
    (h : P (d.field key)) : (d.get? key).isSome := by
  cases hget : d.get? key with
  | none =>
    rw [field, hget] at h
    exact absurd h hnull
  | some v => rfl

theorem isSome_of_isText {key : String} {d : Document} (h : (d.field key).IsText) :
    (d.get? key).isSome := isSome_of_field (by decide) h

theorem isRecord_of_isText {key : String} {d : Document} (h : (d.field key).IsText) :
    d.isRecord := by
  obtain ⟨v, hget⟩ := Option.isSome_iff_exists.1 (isSome_of_isText h)
  exact isRecord_of_get? hget

theorem isText_of_givenAt? {key : String} {d v : Document} (h : (d.field key).IsOptionalText)
    (hv : d.givenAt? key = some v) : v.IsText := by
  obtain ⟨hget, htruthy⟩ := Option.filter_eq_some_iff.1 hv
  rw [field, hget] at h
  exact h.isText htruthy

theorem isOptionalText_givenAt {key : String} {d : Document} (h : (d.field key).IsOptionalText) :
    (d.givenAt key).IsOptionalText := by
  cases hv : d.givenAt? key with
  | none =>
    rw [givenAt, hv]
    exact isOptionalText_null
  | some v =>
    rw [givenAt, hv]
    exact (isText_of_givenAt? h hv).optional

theorem isOptionalText_of_get? {key : String} {d v : Document} (h : (d.field key).IsOptionalText)
    (hv : d.get? key = some v) : v.IsOptionalText := by
  rwa [field, hv] at h

theorem isOptionalText_either {first second : String} {d : Document}
    (h : (d.field first).IsOptionalText) (h' : (d.field second).IsOptionalText) :
    (d.either first second).IsOptionalText := by
  cases hv : d.givenAt? first with
  | some v =>
    rw [either, hv]
    exact (isText_of_givenAt? h hv).optional
  | none =>
    cases hget : d.get? second with
    | some w =>
      rw [either, hv, hget]
      exact isOptionalText_of_get? h' hget
    | none =>
      rw [either, hv, hget]
      exact (isText_text _).optional

structure IsColumnRow (d : Document) : Prop where
  name : (d.field "name").IsText
  type : (d.field "type").IsOptionalText

instance : DecidablePred IsColumnRow := fun _ =>
  decidable_of_iff (_ ∧ _) ⟨fun ⟨a, b⟩ => ⟨a, b⟩, fun ⟨a, b⟩ => ⟨a, b⟩⟩

/-- The target has to be given, but may be left empty. -/
structure IsKeyRow (d : Document) : Prop where
  column : (d.field "column").IsText
  target : (d.get? "references_table").isSome
  optional : ∀ key ∈ ["name", "references_table", "references_schema", "references_catalog",
    "references_column"], (d.field key).IsOptionalText

instance : DecidablePred IsKeyRow := fun _ =>
  decidable_of_iff (_ ∧ _ ∧ _) ⟨fun ⟨a, b, c⟩ => ⟨a, b, c⟩, fun ⟨a, b, c⟩ => ⟨a, b, c⟩⟩

structure IsTableRow (d : Document) : Prop where
  name : (d.field "name").IsText
  schema : (d.field "schema").IsOptionalText
  catalog : (d.field "catalog").IsOptionalText
  columns : d.Lists "columns" IsColumnRow
  foreignKeys : d.Lists "foreign_keys" IsKeyRow
  primaryKey : d.field "primary_key" = .null ∨ (d.field "primary_key").IsListOf IsText

instance : DecidablePred IsTableRow := fun _ =>
  decidable_of_iff (_ ∧ _ ∧ _ ∧ _ ∧ _ ∧ _) ⟨fun ⟨a, b, c, d, e, f⟩ => ⟨a, b, c, d, e, f⟩,
    fun ⟨a, b, c, d, e, f⟩ => ⟨a, b, c, d, e, f⟩⟩

structure IsRelationship (d : Document) : Prop where
  isRecord : d.isRecord
  optional : ∀ key ∈ ["type", "from_table", "from", "from_column", "to_table", "to", "to_column"],
    (d.field key).IsOptionalText

instance : DecidablePred IsRelationship := fun _ =>
  decidable_of_iff (_ ∧ _) ⟨fun ⟨a, b⟩ => ⟨a, b⟩, fun ⟨a, b⟩ => ⟨a, b⟩⟩

structure IsDescription (d : Document) : Prop where
  isRecord : d.isRecord
  tables : d.Lists "tables" IsTableRow
  relationships : d.field "relationships" = .null ∨
    (d.field "relationships").IsListOf IsRelationship

instance : DecidablePred IsDescription := fun _ =>
  decidable_of_iff (_ ∧ _ ∧ _) ⟨fun ⟨a, b, c⟩ => ⟨a, b, c⟩, fun ⟨a, b, c⟩ => ⟨a, b, c⟩⟩

theorem items_of_field_eq_null {key : String} {d : Document} (h : d.field key = .null) :
    d.items key = [] := by
  cases hget : d.get? key with
  | none => rw [items, hget]
  | some v =>
    rw [field, hget] at h
    obtain rfl : v = .null := h
    rw [items, hget]

theorem get?_of_field_eq_list {key : String} {d : Document} {ds : List Document}
    (h : d.field key = .list ds) : d.get? key = some (.list ds) := by
  cases hget : d.get? key with
  | none =>
    rw [field, hget] at h
    cases h
  | some v =>
    rw [field, hget] at h
    exact congrArg some h

/-- A field that is left empty has no entries, like one that is not there. -/
theorem givenEntries_eq {key : String} {P : Document → Prop} {d : Document}
    (h : d.field key = .null ∨ (d.field key).IsListOf P) :
    d.givenEntries key = .ok (d.items key) ∧ ∀ x ∈ d.items key, P x := by
  rcases h with h | ⟨ds, hds, hall⟩
  · have hnone : d.givenAt? key = none := by
      cases hget : d.get? key with
      | none => rw [givenAt?, hget]; rfl
      | some v =>
        rw [field, hget] at h
        obtain rfl : v = .null := h
        rw [givenAt?, hget]
        rfl
    rw [givenEntries, hnone, items_of_field_eq_null h]
    exact ⟨rfl, List.forall_mem_nil _⟩
  · have hget := get?_of_field_eq_list hds
    have hitems : d.items key = ds := by rw [items, hget]
    refine ⟨?_, hitems ▸ hall⟩
    rw [givenEntries, givenAt?, hget, hitems]
    cases ds <;> rfl

end Document

open Document

structure KeyRow.IsTyped (row : KeyRow) : Prop where
  name : row.name.Gives IsOptionalText
  column : row.column.Gives IsText
  target : row.target.Gives IsOptionalText
  targetSchema : ∀ n ∈ row.targetSchema, n.IsOptionalText
  targetCatalog : ∀ n ∈ row.targetCatalog, n.IsOptionalText
  targetColumn : row.targetColumn.IsOptionalText

structure TableRow.IsTyped (row : TableRow) : Prop where
  name : row.name.Gives IsText
  schema : row.schema.IsOptionalText
  catalog : row.catalog.IsOptionalText
  columns : row.columns.Gives fun rows => ∀ r ∈ rows, r.column.name.IsText
  primaryKey : ∀ n ∈ row.primaryKey, n.IsText
  foreignKeys : row.foreignKeys.Gives fun rows => ∀ r ∈ rows, r.IsTyped

structure Relationship.IsTyped (r : Relationship) : Prop where
  isManyToOne : r.isManyToOne.Gives fun _ => True
  table : r.table.IsOptionalText
  column : r.column.IsOptionalText
  target : r.target.IsOptionalText
  targetColumn : r.targetColumn.IsOptionalText

structure Description.IsTyped (d : Description) : Prop where
  tables : ∀ row ∈ d.tables, row.IsTyped
  relationships : d.relationships.Gives fun rs => ∀ r ∈ rs, r.IsTyped

namespace Document
variable {d : Document}

theorem IsColumnRow.gives (h : d.IsColumnRow) :
    (ColumnRow.ofDocument d).Gives fun r => r.column.name.IsText := by
  have htype : ∃ t, ColumnRow.sqlType d = .ok t := by
    cases hv : d.givenAt? "type" with
    | none => exact ⟨_, by rw [ColumnRow.sqlType, hv]; rfl⟩
    | some v =>
      have hv' : ((d.givenAt? "type").getD "VARCHAR").IsText := by
        rw [hv]
        exact isText_of_givenAt? h.type hv
      exact ⟨_, by rw [ColumnRow.sqlType, asText_of_isText hv']; rfl⟩
  obtain ⟨t, ht⟩ := htype
  rw [ColumnRow.ofDocument, required_of_isSome (isSome_of_isText h.name), ht]
  exact ⟨_, rfl, h.name⟩

theorem gives_columnRows {ds : List Document} (h : ∀ x ∈ ds, x.IsColumnRow) :
    (ColumnRow.ofDocuments ds).Gives fun rows => ∀ r ∈ rows, r.column.name.IsText := by
  obtain ⟨rows, hrows⟩ := Answer.mapM_isOk fun x hx =>
    (h x hx).gives.imp fun r (hr : ColumnRow.ofDocument x = .ok r ∧ _) => hr.1
  have htexts : ∀ r ∈ rows, r.column.name.IsText := by
    intro r hr
    obtain ⟨x, hx, hread⟩ := (Answer.forall₂_of_mapM hrows).exists_left hr
    exact (h x hx).gives.of_eq_ok hread
  have hkeys : (rows.forM fun r => do discard r.column.name.asKey : Answer PUnit) = .ok ⟨⟩ := by
    refine Answer.forM_eq_ok fun r hr => ?_
    rw [asKey_of_isText (htexts r hr)]
    rfl
  refine ⟨rows, ?_, htexts⟩
  rw [ColumnRow.ofDocuments, hrows, Answer.ok_bind]
  exact Answer.bind_eq_ok.2 ⟨⟨⟩, hkeys, rfl⟩

theorem IsKeyRow.isTyped (h : d.IsKeyRow) : (KeyRow.ofDocument d).IsTyped := by
  have hrecord := isRecord_of_isText h.column
  have hname := isOptionalText_givenAt (h.optional "name" (by simp))
  have hcolumn := required_of_isSome (isSome_of_isText h.column)
  have htarget := required_of_isSome h.target
  refine ⟨⟨d.givenAt "name", ?_, hname⟩, ⟨d.field "column", ?_, h.column⟩,
    ⟨d.field "references_table", htarget, h.optional _ (by simp)⟩, fun n hn => ?_, fun n hn => ?_,
    h.optional _ (by simp)⟩
  · rw [KeyRow.ofDocument, asRecord_of_isRecord hrecord]
    exact asKey_eq_ok.2 ⟨hname.isPlain, rfl⟩
  · rw [KeyRow.ofDocument, hcolumn]
    exact asKey_of_isText h.column
  · exact isOptionalText_of_get? (h.optional _ (by simp)) hn
  · exact isOptionalText_of_get? (h.optional _ (by simp)) hn

theorem IsTableRow.foreignKeys_eq (h : d.IsTableRow) : (TableRow.ofDocument d).foreignKeys =
    .ok ((d.items "foreign_keys").map KeyRow.ofDocument) := by
  rw [TableRow.ofDocument, asRecord_of_isRecord (isRecord_of_isText h.name)]
  dsimp only
  rw [Answer.ok_bind]
  exact Answer.bind_eq_ok.2 ⟨_, h.foreignKeys.entriesAt_eq, rfl⟩

theorem IsTableRow.isTyped (h : d.IsTableRow) : (TableRow.ofDocument d).IsTyped := by
  refine ⟨⟨d.field "name", required_of_isSome (isSome_of_isText h.name), h.name⟩, h.schema,
    h.catalog, ?_, ?_, ⟨_, h.foreignKeys_eq, fun r hr => ?_⟩⟩
  · obtain ⟨rows, hrows, htexts⟩ := gives_columnRows fun x hx => h.columns.mem hx
    exact ⟨rows, Answer.bind_eq_ok.2 ⟨_, h.columns.entriesAt_eq, hrows⟩, htexts⟩
  · rcases h.primaryKey with hnone | ⟨names, hnames, htexts⟩
    · rw [TableRow.ofDocument, hnone]
      exact List.forall_mem_nil _
    · rw [TableRow.ofDocument, hnames]
      exact htexts
  · obtain ⟨x, hx, rfl⟩ := List.mem_map.1 hr
    exact (h.foreignKeys.mem hx).isTyped

theorem IsRelationship.isTyped (h : d.IsRelationship) : (Relationship.ofDocument d).IsTyped := by
  have hkind : ∃ b, (Relationship.ofDocument d).isManyToOne = .ok b := by
    rw [Relationship.ofDocument, asRecord_of_isRecord h.isRecord]
    exact ⟨_, rfl⟩
  obtain ⟨b, hb⟩ := hkind
  refine ⟨⟨b, hb, trivial⟩, ?_, h.optional _ (by simp), ?_, h.optional _ (by simp)⟩
  · exact isOptionalText_either (h.optional _ (by simp)) (h.optional _ (by simp))
  · exact isOptionalText_either (h.optional _ (by simp)) (h.optional _ (by simp))

/-- The tables and the relationships that a description lists can be read. -/
theorem IsDescription.read_eq (h : d.IsDescription) : Description.ofDocument d = .ok {
    tables := (d.items "tables").map TableRow.ofDocument
    relationships := .ok ((d.items "relationships").map Relationship.ofDocument) } := by
  rw [Description.ofDocument, asRecord_of_isRecord h.isRecord, Answer.ok_bind]
  refine Answer.bind_eq_ok.2 ⟨_, h.tables.entriesAt_eq, ?_⟩
  rw [(givenEntries_eq h.relationships).1]
  rfl

theorem IsDescription.isTyped (h : d.IsDescription) {description : Description}
    (hd : Description.ofDocument d = .ok description) : description.IsTyped := by
  obtain rfl := Except.ok.inj (h.read_eq.symm.trans hd)
  refine ⟨fun row hrow => ?_, _, rfl, fun r hr => ?_⟩
  · obtain ⟨x, hx, rfl⟩ := List.mem_map.1 hrow
    exact (h.tables.mem hx).isTyped
  · obtain ⟨x, hx, rfl⟩ := List.mem_map.1 hr
    exact ((givenEntries_eq h.relationships).2 x hx).isTyped

end Document

namespace Relationship

def keyRow (r : Relationship) : KeyRow where
  column := r.column.asKey
  target := .ok r.target
  targetColumn := r.targetColumn

def leadsFrom (r : Relationship) (name : Name) : Bool :=
  r.isManyToOne = .ok true && r.table.truthy && r.column.truthy && r.table.same name

variable {r : Relationship} {rs : List Relationship}

theorem IsTyped.key?_eq (h : r.IsTyped) : r.key? =
    .ok (if r.leadsFrom r.table then some (r.table, r.keyRow) else none) := by
  obtain ⟨b, hb, _⟩ := h.isManyToOne
  rw [key?, hb, Answer.ok_bind, asKey_eq_ok.2 ⟨h.table.isPlain, rfl⟩]
  have hcondition : r.leadsFrom r.table = (b && r.table.truthy && r.column.truthy) := by
    simp [leadsFrom, hb]
  rw [hcondition]
  split <;> rfl

/-- The rows of the relationships are found under the names of the tables that they lead from. -/
theorem keys_gives (h : ∀ r ∈ rs, r.IsTyped) : (keys rs).Gives fun named => ∀ name,
    (named.filter fun x => x.1.same name).map Prod.snd =
      (rs.filter fun r => r.leadsFrom name).map Relationship.keyRow := by
  induction rs with
  | nil => exact ⟨[], rfl, fun _ => rfl⟩
  | cons r rs ih =>
    obtain ⟨hr, hrs⟩ := List.forall_mem_cons.1 h
    obtain ⟨named, hnamed, hrows⟩ := ih hrs
    rw [keys, hr.key?_eq, hnamed]
    refine ⟨_, rfl, fun name => ?_⟩
    have hname : r.leadsFrom name = (r.leadsFrom r.table && r.table.same name) := by
      simp [leadsFrom]
    rw [List.filter_append, List.map_append, hrows, List.filter_cons, hname]
    cases r.leadsFrom r.table <;> cases hsame : r.table.same name <;> simp [hsame]

end Relationship

namespace Description
variable {d : Description}

def listsNone (d : Description) : Bool := d.tables.all fun row => row.keyRows.isEmpty

def rowsFrom (d : Description) (name : Name) : List KeyRow :=
  ((d.relationships.toOption.getD []).filter fun r => r.leadsFrom name).map Relationship.keyRow

def rowsFor (d : Description) (name : Name) : List KeyRow :=
  if d.listsNone then d.rowsFrom name else d.rowsNamed name

theorem declaredKeys_isOk {ts : List TableRow} (h : ∀ row ∈ ts, row.IsTyped) :
    ∃ named, TableRow.declaredKeys ts = .ok named := by
  induction ts with
  | nil => exact ⟨[], rfl⟩
  | cons row ts ih =>
    obtain ⟨hrow, hts⟩ := List.forall_mem_cons.1 h
    obtain ⟨rows, hrows, _⟩ := hrow.foreignKeys
    obtain ⟨name, hname, htext⟩ := hrow.name
    obtain ⟨named, hnamed⟩ := ih hts
    have hown : ∃ own, rows.mapM (fun r => do pure (← (← row.name).asKey, r)) =
        (.ok own : Answer (List (Name × KeyRow))) := by
      refine Answer.mapM_isOk fun r _ => ⟨(name, r), ?_⟩
      rw [hname, Answer.ok_bind, asKey_of_isText htext]
      rfl
    obtain ⟨own, hown⟩ := hown
    refine ⟨own ++ named, ?_⟩
    rw [TableRow.declaredKeys, hrows, Answer.ok_bind, hown, Answer.ok_bind, hnamed]
    rfl

/-- The rows are gathered, and every name finds its own. -/
theorem IsTyped.keyRows_gives (h : d.IsTyped) : d.keyRows.Gives fun named => ∀ name,
    (named.filter fun r => r.1.same name).map Prod.snd = d.rowsFor name := by
  obtain ⟨declared, hdeclared⟩ := declaredKeys_isOk h.tables
  obtain ⟨rs, hrs, hall⟩ := h.relationships
  obtain ⟨named, hnamed, hrows⟩ := Relationship.keys_gives hall
  have hempty : declared.isEmpty = d.listsNone := by
    rw [TableRow.declaredKeys_eq_ok hdeclared, listsNone, Bool.eq_iff_iff, List.isEmpty_iff,
      List.flatMap_eq_nil_iff, List.all_eq_true]
    simp
  rw [keyRows, hdeclared, Answer.ok_bind, hempty, hrs, Answer.ok_bind, hnamed]
  cases hnone : d.listsNone with
  | true =>
    refine ⟨named, rfl, fun name => ?_⟩
    rw [Description.rowsFor, hnone, hrows, rowsFrom, hrs]
    rfl
  | false =>
    refine ⟨declared, rfl, fun name => ?_⟩
    rw [Description.rowsFor, hnone, rowsNamed_eq, TableRow.declaredKeys_eq_ok hdeclared]
    rfl

end Description
end EntityMapping
