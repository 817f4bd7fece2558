import EntityMapping.Proofs.Naming.Letters
import EntityMapping.Proofs.ReferenceNames

/-! # References over an id column

A reference over a column such as `customer_id` is named after the words in front of the last one.
They are joined, cut into words again and put into camel case, and still the name is that of the
property of the column without its ending, in every script.
-/
namespace EntityMapping
open Naming Text

namespace Naming
variable {cs ds w : List Char} {ws : List (List Char)}

/-- Whatever its case, the word id is capitalised in one way, since no character beyond ASCII has a
small form i or d. -/
theorem capitalizeWord_id (h : lowerChars w = ['i', 'd']) : capitalizeWord w = ['I', 'd'] := by
  have hbefore : ∀ x ∈ lowerChars w, IsBeforeK x := by
    simp [h, IsBeforeK]
  have hascii : IsAscii w := isAscii_of_lowerFrom hbefore
  rw [← capitalizeWord_map_toLower hascii, ← lowerChars_ascii hascii, h]
  decide

theorem capitalizeWord_ne_nil (h : w ≠ []) : capitalizeWord w ≠ [] := by
  obtain ⟨c, w, rfl⟩ := List.exists_cons_of_ne_nil h
  refine List.append_ne_nil_of_left_ne_nil ?_ _
  rw [List.take_succ_cons, List.take_zero, upperChars, List.flatMap_singleton]
  exact upperChar_ne_nil c

theorem flatMap_capitalizeWord_ne_nil (hne : ws ≠ []) (h : ∀ w ∈ ws, IsWord w) :
    ws.flatMap capitalizeWord ≠ [] := by
  obtain ⟨w, ws, rfl⟩ := List.exists_cons_of_ne_nil hne
  rw [List.flatMap_cons]
  exact List.append_ne_nil_of_left_ne_nil
    (capitalizeWord_ne_nil (h w List.mem_cons_self).ne_nil) _

theorem lowerFirst_append (h : cs ≠ []) : lowerFirst (cs ++ ds) = lowerFirst cs ++ ds := by
  obtain ⟨c, cs, rfl⟩ := List.exists_cons_of_ne_nil h
  simp [lowerFirst]

theorem lowerFirst_ne_nil (h : cs ≠ []) : lowerFirst cs ≠ [] := by
  obtain ⟨c, cs, rfl⟩ := List.exists_cons_of_ne_nil h
  exact List.append_ne_nil_of_left_ne_nil (lowerChars_singleton_ne_nil c) _

theorem map_toList_words (name : String) :
    (words name).map String.toList = wordsOf name.toList := by
  have hspelled : String.toList ∘ String.ofList = id := funext fun _ => String.toList_ofList
  rw [words, List.map_map, hspelled, List.map_id]

end Naming

/-- The property of an id column is called as the words in front of the last one are when they stand
alone, with the ending Id. -/
theorem lowerCamel_idColumn {n w : String} {ws : List String} (hwords : words n = ws ++ [w])
    (hne : ws ≠ []) (hid : lower w = "id") :
    lowerCamel n = lowerCamel ("_".intercalate ws) ++ "Id" ∧
      lowerCamel ("_".intercalate ws) ≠ "" := by
  have hword : ∀ v ∈ ws, IsWord v.toList := by
    intro v hv
    have hmem : v ∈ words n := by rw [hwords]; exact List.mem_append_left _ hv
    exact mem_words hmem
  have hlast : capitalizeWord w.toList = ['I', 'd'] := by
    apply capitalizeWord_id
    rw [← String.toList_ofList (l := lowerChars w.toList)]
    exact congrArg String.toList hid
  have hchars : wordsOf n.toList = ws.map String.toList ++ [w.toList] := by
    rw [← map_toList_words, hwords, List.map_append, List.map_singleton]
  have hstem : wordsOf ("_".intercalate ws).toList = ws.map String.toList := by
    rw [← map_toList_words, words_intercalate hword]
  have hne' : ws.map String.toList ≠ [] := by simpa using hne
  have hcamel := flatMap_capitalizeWord_ne_nil hne' (List.forall_mem_map.2 hword)
  have hcolumn : upperCamelChars n.toList =
      (ws.map String.toList).flatMap capitalizeWord ++ ['I', 'd'] := by
    rw [upperCamelChars_of_words (by simp [hchars]), hchars, List.flatMap_append,
      List.flatMap_singleton, hlast]
  have hfront : upperCamelChars ("_".intercalate ws).toList =
      (ws.map String.toList).flatMap capitalizeWord := by
    rw [upperCamelChars_of_words (by rwa [hstem]), hstem]
  rw [lowerCamel, lowerCamel, hcolumn, hfront, lowerFirst_append hcamel, String.ofList_append]
  refine ⟨rfl, fun hempty => lowerFirst_ne_nil hcamel ?_⟩
  rw [← String.toList_ofList (l := lowerFirst _), hempty]
  rfl

theorem keyStem?_eq_some {f : ForeignKey} {col : Column} {n w : String} {ws : List String}
    (hcol : f.columns = [col]) (hname : col.name = .text n) (hwords : words n = ws ++ [w])
    (hne : ws ≠ []) (hid : lower w = "id") : keyStem? f true = .ok (some ws) := by
  have hlength : 1 < ws.length + 1 := by
    have hpos := List.length_pos_of_ne_nil hne
    omega
  have hstem : idStem? (words n) = some ws := by
    rw [idStem?, hwords, if_pos ⟨by simpa using hlength, by simp [hid]⟩, List.dropLast_concat]
  simp only [keyStem?, hcol, hname, wordsOfName_text]
  exact congrArg Except.ok hstem

/-- The only reference to its target over an id column has a name that is not empty, and the
property of the column is called by that name with Id behind it. -/
theorem Convention.standard_namesById (package : Name) {f : ForeignKey} (h : f.IsNamedById true) :
    ∃ name : String, name ≠ "" ∧ (standard package).referenceName f true = .ok (.text name) ∧
      ∀ col ∈ f.columns, ∀ t,
        (standard package).propertyName t col.name = .ok (.text (name ++ "Id")) := by
  obtain ⟨_, col, n, ws, w, hcol, hname, hwords, hne, hid⟩ := h
  obtain ⟨hcamel, hnonempty⟩ := lowerCamel_idColumn hwords hne hid
  refine ⟨lowerCamel ("_".intercalate ws), hnonempty, ?_, ?_⟩
  · simp only [standard, standardWith, standardReferenceName,
      keyStem?_eq_some hcol hname hwords hne hid]
    rfl
  · intro col' hcol' t
    obtain rfl : col' = col := by simpa [hcol] using hcol'
    simp only [standard, standardWith, hname, lowerCamelName_text, hcamel]

def ForeignKey.ofInvoice (column : String) : ForeignKey where
  table := { name := "invoices" }
  target := { name := "customers" }
  columns := [{ name := .text column }]
  columns_ne := by simp
  paired := .inl rfl

/-- A reference over a column with Greek letters, an acronym and no underscore in front of the last
word. -/
theorem Convention.standard_namesById_greek :
    (ForeignKey.ofInvoice "ΣΑΣ-HTTPKundeID").IsNamedById true ∧
    (standard .null).referenceName (ForeignKey.ofInvoice "ΣΑΣ-HTTPKundeID") true =
      .ok (.text "σαςHttpKunde") ∧
    ∀ t, (standard .null).propertyName t (.text "ΣΑΣ-HTTPKundeID") =
      .ok (.text "σαςHttpKundeId") := by
  have hwords : words "ΣΑΣ-HTTPKundeID" = ["ΣΑΣ", "HTTP", "Kunde"] ++ ["ID"] := by decide +kernel
  have hid : (ForeignKey.ofInvoice "ΣΑΣ-HTTPKundeID").IsNamedById true :=
    ⟨rfl, _, _, _, _, rfl, rfl, hwords, by simp, by decide +kernel⟩
  have hname : (standard .null).referenceName (ForeignKey.ofInvoice "ΣΑΣ-HTTPKundeID") true =
      .ok (.text "σαςHttpKunde") := by decide +kernel
  obtain ⟨name, _, href, hproperty⟩ := standard_namesById .null hid
  obtain rfl : name = "σαςHttpKunde" := by simpa [hname] using href.symm
  exact ⟨hid, hname, hproperty _ List.mem_cons_self⟩

end EntityMapping
