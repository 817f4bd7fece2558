import EntityMapping.Proofs.Inspection.Table

/-! # What is read from an inspection

Tables are read one after another, each as it is reported. Reading ends with the first table that
fails, else with the rule that the tables break together.
-/
namespace EntityMapping
open Document

def Document.reportedNames (reported : Document) : List Name :=
  ((reported.items "tables").map (field "name")).eraseDups

section
variable (url : String) (schema : Name) (reported : Document)

/-- Tables that are read under their names, each with its warnings. -/
def Table.AreRead (names : List Name) (read : List (Table × List Warning)) : Prop :=
  List.Forall₂ (fun n p => Table.Reading url schema reported n ⟨.ok p.1, p.2⟩) names read

inductive Schema.Reading : List Name → Report Schema → Prop
  | failed {before after : List Name} {n : Name} {read : List (Table × List Warning)}
    {e : ReadError} {ws : List Warning} (hread : Table.AreRead url schema reported before read)
    (h : Table.Reading url schema reported n ⟨.error e, ws⟩) :
    Reading (before ++ n :: after) ⟨.error e, read.flatMap Prod.snd ++ ws⟩
  | refused {names : List Name} {read : List (Table × List Warning)} {e : DefinitionError}
    (hread : Table.AreRead url schema reported names read)
    (h : FirstFault (read.map Prod.fst) e) :
    Reading names ⟨.error (.definition e), read.flatMap Prod.snd⟩
  | schema {names : List Name} {read : List (Table × List Warning)} {s : Schema}
    (hread : Table.AreRead url schema reported names read) (h : s.tables = read.map Prod.fst) :
    Reading names ⟨.ok s, read.flatMap Prod.snd⟩

end

section
variable {url : String} {schema : Name} {reported : Document}

theorem Inspector.table?_eq {n : Name} (hn : n.IsText) :
    Inspector.table? ((reported.items "tables").map inspectedTable) n =
      (reported.reportedTable? n).map inspectedTable := by
  have hsame : ∀ d : Document, d.inspectedTable.name.same n = decide (d.field "name" = n) := by
    intro d
    refine Bool.eq_iff_iff.2 (same_iff.trans (Iff.trans ?_ decide_eq_true_iff.symm))
    exact ⟨fun h => (hn.eq_of_key h.symm).symm, congrArg _⟩
  rw [table?, reportedTable?, ← List.map_reverse, List.find?_map]
  exact congrArg (fun p => ((reported.items "tables").reverse.find? p).map inspectedTable)
    (funext hsame)

theorem Inspector.foldl_names {ns : List Name} (hns : ∀ n ∈ ns, n.IsText) (seen : List Name) :
    ns.foldl (fun seen n => if seen.any (·.same n) then seen else seen ++ [n]) seen =
      seen ++ (ns.filter fun n => n ∉ seen).eraseDups := by
  -- what was seen grows with every new name, and only what is not seen is left to come
  induction ns generalizing seen with
  | nil => exact (List.append_nil seen).symm
  | cons n ns ih =>
    obtain ⟨hn, hns⟩ := List.forall_mem_cons.1 hns
    have hany : seen.any (·.same n) = decide (n ∈ seen) := by
      refine Bool.eq_iff_iff.2 (List.any_eq_true.trans (Iff.trans ?_ decide_eq_true_iff.symm))
      exact ⟨fun ⟨m, hm, h⟩ => hn.eq_of_key (same_iff.1 h).symm ▸ hm, fun h => ⟨n, h, same_self n⟩⟩
    rw [List.foldl_cons, hany]
    by_cases h : n ∈ seen
    · rw [if_pos (decide_eq_true h), List.filter_cons_of_neg (by simpa using h)]
      exact ih hns seen
    · have hrest : ns.filter (fun m => m ∉ seen ++ [n]) =
          (ns.filter fun m => m ∉ seen).filter fun m => !m == n := by
        rw [List.filter_filter]
        refine List.filter_congr fun m _ => ?_
        rw [Bool.eq_iff_iff]
        simp [and_comm]
      rw [if_neg (by simpa using h), List.filter_cons_of_pos (by simpa using h),
        List.eraseDups_cons, ih hns, hrest, List.append_assoc, List.singleton_append]

theorem Inspector.tableNames_eq (hreported : reported.IsInspection) :
    Inspector.tableNames ((reported.items "tables").map inspectedTable) =
      reported.reportedNames := by
  have hnames : ∀ n ∈ (reported.items "tables").map (field "name"), n.IsText :=
    List.forall_mem_map.2 fun d hd => (hreported.required_entries.2 d hd).name
  rw [tableNames, List.map_map]
  refine (foldl_names hnames []).trans ?_
  rw [List.filter_eq_self.2 (by simp), List.nil_append, reportedNames]

theorem Inspector.readTable_reading (hreported : reported.IsInspection)
    (hschema : schema.IsOptionalText) {n : Name} (hn : n.IsText) :
    Table.Reading url schema reported n (Inspector.readTable url schema
      ((reported.items "tables").map inspectedTable) n) := by
  rw [readTable, asKey_of_isText hn, Report.ofAnswer_ok_bind, table?_eq hn]
  cases hfound : reported.reportedTable? n with
  | none => exact .undescribed hfound
  | some d =>
    obtain ⟨hmem, rfl⟩ := mem_of_reportedTable? hfound
    exact InspectedTable.reading (hreported.required_entries.2 d hmem) hschema hfound

/-- Tables that are read break no rules together but those about what they name. -/
theorem Table.AreRead.firstFault (hreported : reported.IsInspection)
    (hschema : schema.IsOptionalText) {ns : List Name} {read : List (Table × List Warning)}
    (hread : Table.AreRead url schema reported ns read) {e : DefinitionError}
    (h : Schema.build (read.map Prod.fst) = .error e) :
    Schema.FirstFault (read.map Prod.fst) e := by
  have hfrom : ∀ t ∈ read.map Prod.fst, ∃ d, d.IsReportedTable ∧ t.IsAsReported schema d := by
    refine List.forall_mem_map.2 fun p hmem => ?_
    obtain ⟨n, _, hn⟩ := hread.exists_left hmem
    obtain ⟨d, hd, ht, _⟩ := hn.isAsReported
    exact ⟨d, hreported.required_entries.2 d (mem_of_reportedTable? hd).1, ht⟩
  refine Schema.firstFault_of_build (fun t ht => ?_) (fun t ht f hf => ?_) h
  · obtain ⟨d, hd, htable⟩ := hfrom t ht
    exact htable.isTyped_id hd hschema
  · obtain ⟨d, hd, htable⟩ := hfrom t ht
    exact htable.targets hd hschema hf

theorem Inspector.read_reading (url : String) (hreported : reported.IsInspection)
    (hschema : schema.IsOptionalText) {ns : List Name} (hns : ∀ n ∈ ns, n.IsText) :
    Schema.Reading url schema reported ns
      (ns.mapM (readTable url schema ((reported.items "tables").map inspectedTable)) >>=
        fun tables => Report.ofDefinition (Schema.build tables)) := by
  have heach : ∀ n ∈ ns, Table.Reading url schema reported n
      (readTable url schema ((reported.items "tables").map inspectedTable) n) :=
    fun n hn => readTable_reading hreported hschema (hns n hn)
  rcases Report.mapM_cases (readTable url schema ((reported.items "tables").map inspectedTable)) ns
    with ⟨read, hall, heq⟩ | ⟨before, n, after, read, e, ws, rfl, hall, hn, heq⟩
  · have hread : Table.AreRead url schema reported ns read :=
      hall.imp_of_mem fun n hn p _ h => h ▸ heach n hn
    rw [heq, Report.ok_bind]
    cases hbuild : Schema.build (read.map Prod.fst) with
    | ok s =>
      rw [Report.ofDefinition, List.append_nil]
      exact .schema hread (Schema.build_eq_ok_iff.1 hbuild)
    | error e =>
      rw [Report.ofDefinition, List.append_nil]
      exact .refused hread (hread.firstFault hreported hschema hbuild)
  · have hread : Table.AreRead url schema reported before read :=
      hall.imp_of_mem fun m hm p _ h => h ▸ heach m (List.mem_append_left _ hm)
    rw [heq, Report.error_bind]
    exact .failed hread (hn ▸ heach n (by simp))

/-- A schema is read from an inspection as it is reported, table after table. -/
theorem Schema.ofInspection_reading (url : String) (names : Option (List Name))
    (hreported : reported.IsInspection) (hschema : schema.IsOptionalText)
    (hnames : ∀ given ∈ names, ∀ n ∈ given, n.IsText) :
    Schema.Reading url schema reported (names.getD reported.reportedNames)
      (Schema.ofInspection url schema (names.map .list) reported) := by
  rw [ofInspection, hreported.read_eq, Report.ofAnswer_ok_bind]
  cases names with
  | none =>
    have hall : ∀ n ∈ reported.reportedNames, n.IsText := by
      intro n hn
      obtain ⟨d, hd, rfl⟩ := List.mem_map.1 (List.mem_eraseDups.1 hn)
      exact (hreported.required_entries.2 d hd).name
    have hreading := Inspector.read_reading url hreported hschema hall
    rw [← Inspector.tableNames_eq hreported] at hreading ⊢
    exact hreading
  | some given => exact Inspector.read_reading url hreported hschema (hnames given rfl)

end

/-- Orders whose primary key and second foreign key name a column that is not reported. -/
def Document.partlyKnown : Document :=
  .record [("tables", .list [.record [("name", "orders"),
    ("columns", .list [.record [("name", "id"), ("type", .record [("visit_name", "integer")])],
      .record [("name", "customer"), ("type", .record [])]]),
    ("pk", .record [("constrained_columns", .list ["number", "id"])]),
    ("fks", .list [
      .record [("constrained_columns", .list ["customer"]), ("referred_table", "customers"),
        ("referred_columns", .list ["id"])],
      .record [("name", "of_region"), ("constrained_columns", .list ["region"]),
        ("referred_table", "regions")]])]])]

/-- The orders are read without what is not known; customers are not described. -/
theorem Schema.ofInspection_reading_partlyKnown :
    Document.partlyKnown.IsInspection ∧
      (∃ s, Schema.Reading "sqlite://" .null .partlyKnown ["orders"]
          ⟨.ok s, [.unreadableKey "of_region" { name := "orders" }]⟩ ∧
        s.tables.map (fun t => (Column.names t.keyColumns,
          t.foreignKeys.map fun f => (f.columnNames, f.targetColumns))) =
            [([text "id"], [([text "customer"], [text "id"])])]) ∧
      Schema.Reading "sqlite://" .null .partlyKnown ["customers", "orders"]
        ⟨.error (.unreadable "customers" "sqlite://"), []⟩ := by
  have htyped : Document.partlyKnown.IsInspection := by decide
  refine ⟨htyped, ?_, ?_⟩
  · have hreading := ofInspection_reading "sqlite://" none htyped isOptionalText_null nofun
    have hnames : Document.partlyKnown.reportedNames = [text "orders"] := by decide
    have hrun : (ofInspection "sqlite://" .null none .partlyKnown).result.toOption.any fun s =>
        s.tables.map (fun t => (Column.names t.keyColumns,
          t.foreignKeys.map fun f => (f.columnNames, f.targetColumns))) =
            [([text "id"], [([text "customer"], [text "id"])])] := by decide
    have hwarnings : (ofInspection "sqlite://" .null none .partlyKnown).warnings =
        [.unreadableKey "of_region" { name := "orders" }] := by decide
    obtain ⟨s, hs, hshape⟩ := exists_ok_of_toOption_any hrun
    refine ⟨s, ?_, of_decide_eq_true hshape⟩
    rw [← hs, ← hwarnings, ← hnames]
    exact hreading
  · have hread : ofInspection "sqlite://" .null (some (.list ["customers", "orders"]))
        .partlyKnown = ⟨.error (.unreadable "customers" "sqlite://"), []⟩ := rfl
    rw [← hread]
    exact ofInspection_reading _ (some [text "customers", text "orders"]) htyped
      isOptionalText_null (by rintro _ ⟨⟩; decide)

end EntityMapping
