import EntityMapping.Inspection
import EntityMapping.Proofs.Description.Typed

/-! # Inspections whose fields have their kinds

What an inspection has to report of a table is there: its name, its columns with their types, and
the tables that its foreign keys refer to. The names are texts, and a column that a key names may
be missing. Of such an inspection everything can be read.
-/
namespace EntityMapping.Document

def IsNameList (d : Document) : Prop := d = .null ∨ d.IsListOf IsOptionalText

instance : DecidablePred IsNameList := fun _ => inferInstanceAs (Decidable (_ ∨ _))

structure IsReportedColumn (d : Document) : Prop where
  name : (d.field "name").IsText
  type : (d.field "type").isRecord

instance : DecidablePred IsReportedColumn := fun _ =>
  decidable_of_iff (_ ∧ _) ⟨fun ⟨a, b⟩ => ⟨a, b⟩, fun ⟨a, b⟩ => ⟨a, b⟩⟩

structure IsReportedKey (d : Document) : Prop where
  target : (d.get? "referred_table").isSome
  names : ∀ key ∈ ["referred_table", "referred_schema"], (d.field key).IsOptionalText
  columns : ∀ key ∈ ["constrained_columns", "referred_columns"], (d.field key).IsNameList

instance : DecidablePred IsReportedKey := fun _ =>
  decidable_of_iff (_ ∧ _ ∧ _) ⟨fun ⟨a, b, c⟩ => ⟨a, b, c⟩, fun ⟨a, b, c⟩ => ⟨a, b, c⟩⟩

def HasRecord (key : String) (d : Document) : Prop := d.field key = .null ∨ (d.field key).isRecord

instance {key : String} : DecidablePred (HasRecord key) := fun _ =>
  inferInstanceAs (Decidable (_ ∨ _))

structure IsReportedTable (d : Document) : Prop where
  name : (d.field "name").IsText
  columns : (d.field "columns").IsListOf IsReportedColumn
  primaryKey : d.HasRecord "pk"
  keyColumns : ((d.field "pk").field "constrained_columns").IsNameList
  foreignKeys : d.Lists "fks" IsReportedKey
  comment : d.HasRecord "comment"

instance : DecidablePred IsReportedTable := fun _ =>
  decidable_of_iff (_ ∧ _ ∧ _ ∧ _ ∧ _ ∧ _) ⟨fun ⟨a, b, c, d, e, f⟩ => ⟨a, b, c, d, e, f⟩,
    fun ⟨a, b, c, d, e, f⟩ => ⟨a, b, c, d, e, f⟩⟩

/-- An inspection with all that it needs, and with fields of their kinds. -/
def IsInspection (d : Document) : Prop := (d.field "tables").IsListOf IsReportedTable

instance : DecidablePred IsInspection := fun _ => inferInstanceAs (Decidable (IsListOf _ _))

def reportedColumn (d : Document) : Column where
  name := d.field "name"
  sqlType := .text (Text.upper (((d.field "type").get? "visit_name").getD "VARCHAR").shown)
  nullable := .bool (((d.get? "nullable").map truthy).getD true)
  length := (d.field "type").field "length"
  precision := (d.field "type").field "precision"
  scale := (d.field "type").field "scale"

def reportedColumns (d : Document) : List Column := (d.items "columns").map reportedColumn

def inspectedKey (d : Document) : InspectedKey where
  columns := .ok (d.items "constrained_columns")
  target := .ok (d.field "referred_table")
  targetSchema := d.givenAt "referred_schema"
  targetColumns := .ok ((d.items "referred_columns").filter truthy)
  name := d.field "name"

def inspectedTable (d : Document) : InspectedTable where
  name := d.field "name"
  columns := .ok d.reportedColumns
  keyColumns := .ok ((d.field "pk").items "constrained_columns")
  keyName := (d.field "pk").field "name"
  foreignKeys := .ok ((d.items "fks").map fun k => .ok k.inspectedKey)
  comment := .ok ((d.field "comment").field "text")

variable {d : Document}

theorem IsListOf.required_entries {key : String} {P : Document → Prop}
    (h : (d.field key).IsListOf P) :
    (d.required key >>= entries) = .ok (d.items key) ∧ ∀ x ∈ d.items key, P x := by
  obtain ⟨ds, hds, hall⟩ := h
  have hget := get?_of_field_eq_list hds
  rw [required_of_isSome (by rw [hget]; rfl), hds, items, hget]
  exact ⟨rfl, hall⟩

/-- A record that is left empty has no fields, like one that is not there. -/
theorem HasRecord.given {key : String} (h : d.HasRecord key) :
    ((d.givenAt? key).getD (.record [])).isRecord ∧
      ∀ k, ((d.givenAt? key).getD (.record [])).get? k = (d.field key).get? k := by
  cases hget : d.get? key with
  | none =>
    rw [givenAt?, field, hget]
    exact ⟨rfl, fun _ => rfl⟩
  | some v =>
    rw [HasRecord, field, hget] at h
    rw [givenAt?, field, hget]
    rcases h with rfl | h
    · exact ⟨rfl, fun _ => rfl⟩
    · cases v with
      | record fields => cases fields <;> exact ⟨rfl, fun _ => rfl⟩
      | _ => cases h

theorem field_congr {key : String} {e : Document} (h : d.get? key = e.get? key) :
    d.field key = e.field key := by rw [field, field, h]

theorem givenEntries_congr {key : String} {e : Document} (h : d.get? key = e.get? key) :
    d.givenEntries key = e.givenEntries key := by
  rw [givenEntries, givenEntries, givenAt?, givenAt?, h]

theorem IsNameList.givenEntries_eq {key : String} (h : (d.field key).IsNameList) :
    d.givenEntries key = .ok (d.items key) ∧ ∀ n ∈ d.items key, n.IsOptionalText :=
  Document.givenEntries_eq h

theorem IsReportedKey.read_eq (h : d.IsReportedKey) :
    InspectedTable.foreignKey d = .ok d.inspectedKey := by
  obtain ⟨_, hget⟩ := Option.isSome_iff_exists.1 h.target
  rw [InspectedTable.foreignKey, asRecord_of_isRecord (isRecord_of_get? hget), Answer.ok_bind,
    required_of_isSome h.target, (h.columns "constrained_columns" (by simp)).givenEntries_eq.1,
    (h.columns "referred_columns" (by simp)).givenEntries_eq.1]
  rfl

theorem IsReportedColumn.read_eq (h : d.IsReportedColumn) :
    InspectedTable.column d (d.field "type") = .ok d.reportedColumn := by
  rw [InspectedTable.column, required_of_isSome (isSome_of_isText h.name)]
  rfl

theorem columnsOf_eq {ds : List Document} (h : ∀ x ∈ ds, x.IsReportedColumn) :
    InspectedTable.columnsOf ds = .ok (ds.map reportedColumn) := by
  have htypes : (ds.mapM fun x => do (← x.required "type").asRecord : Answer (List Document)) =
      .ok (ds.map (field "type")) := by
    refine Answer.mapM_eq_map fun x hx => ?_
    have htype := (h x hx).type
    have hsome := isSome_of_field (P := fun v => v.isRecord) (by decide) htype
    rw [required_of_isSome hsome, Answer.ok_bind, asRecord_of_isRecord htype]
  have hzip : ds.zip (ds.map (field "type")) = ds.map fun x => (x, x.field "type") := by
    rw [← List.zip_map', List.map_id']
  have hcolumns : ((ds.zip (ds.map (field "type"))).mapM fun p =>
      InspectedTable.column p.1 p.2) = .ok (ds.map reportedColumn) := by
    rw [hzip, List.mapM_map]
    exact Answer.mapM_eq_map fun x hx => (h x hx).read_eq
  have hnames : ((ds.map reportedColumn).forM fun c => discard c.name.asKey : Answer PUnit) =
      .ok ⟨⟩ := by
    refine Answer.forM_eq_ok (List.forall_mem_map.2 fun x hx => ?_)
    have hkey : x.reportedColumn.name.asKey = .ok (x.field "name") := asKey_of_isText (h x hx).name
    rw [hkey]
    rfl
  rw [InspectedTable.columnsOf, htypes, Answer.ok_bind]
  refine Answer.bind_eq_ok.2 ⟨_, hcolumns, ?_⟩
  rw [hnames]
  rfl

theorem IsReportedTable.read_eq (h : d.IsReportedTable) :
    InspectedTable.ofDocument d = .ok d.inspectedTable := by
  obtain ⟨hkey, hkeyFields⟩ := h.primaryKey.given
  obtain ⟨hcomment, hcommentFields⟩ := h.comment.given
  obtain ⟨hcolumns, hcolumn⟩ := h.columns.required_entries
  have hforeign : (d.items "fks").map InspectedTable.foreignKey =
      (d.items "fks").map fun k => .ok k.inspectedKey :=
    List.map_congr_left fun k hk => (h.foreignKeys.mem hk).read_eq
  rw [InspectedTable.ofDocument, required_of_isSome (isSome_of_isText h.name), Answer.ok_bind,
    asKey_of_isText h.name, Answer.ok_bind, h.foreignKeys.entriesAt_eq]
  refine congrArg Except.ok ?_
  rw [inspectedTable, InspectedTable.mk.injEq]
  refine ⟨rfl, ?ofColumns, ?ofKeyColumns, ?ofKeyName, ?ofForeignKeys, ?ofComment⟩
  case ofColumns =>
    rw [← bind_assoc, hcolumns, Answer.ok_bind]
    exact columnsOf_eq hcolumn
  case ofKeyColumns =>
    rw [asRecord_of_isRecord hkey, Answer.ok_bind, givenEntries_congr (hkeyFields _)]
    exact h.keyColumns.givenEntries_eq.1
  case ofKeyName => exact field_congr (hkeyFields _)
  case ofForeignKeys => exact congrArg Except.ok hforeign
  case ofComment =>
    rw [asRecord_of_isRecord hcomment, Answer.ok_bind, field_congr (hcommentFields _)]
    rfl

/-- Everything that an inspection reports can be read. -/
theorem IsInspection.read_eq (h : d.IsInspection) :
    Inspector.ofDocument d = .ok ((d.items "tables").map inspectedTable) := by
  obtain ⟨htables, htable⟩ := IsListOf.required_entries h
  rw [Inspector.ofDocument, ← bind_assoc, htables, Answer.ok_bind]
  exact Answer.mapM_eq_map fun x hx => (htable x hx).read_eq

end EntityMapping.Document
