import EntityMapping.Convention.Basic
import EntityMapping.Convention.Standard
import EntityMapping.Proofs.Relational.Typed

/-! # Conventions that always answer

A total convention answers every question about typed parts of a schema, with texts where names are
asked for. The plain and the standard convention are total.
-/
namespace EntityMapping
open Document Naming

def Document.IsOptionalRecord (d : Document) : Prop := d = .null ∨ d.isRecord

theorem Document.IsOptionalRecord.annotations_isOk {d : Document} (h : d.IsOptionalRecord) :
    ∃ as, d.annotations = .ok as := by
  rcases h with rfl | h
  · exact ⟨[], rfl⟩
  · cases d with
    | record fields => exact ⟨_, rfl⟩
    | _ => cases h

structure Convention.IsTotal (c : Convention) : Prop where
  className : ∀ id, id.IsTyped → (c.className id).Gives IsText
  propertyName : ∀ id n, id.IsTyped → n.IsText → (c.propertyName id n).Gives IsText
  logicalType : ∀ id col b, id.IsTyped → col.IsTyped → (c.logicalType id col b).Gives IsText
  isVersionColumn : ∀ id n, id.IsTyped → n.IsText → (c.isVersionColumn id n).Gives fun _ => True
  columnAnnotations : ∀ id n, id.IsTyped → n.IsText →
    (c.columnAnnotations id n).Gives IsOptionalRecord
  tableAnnotations : ∀ id, id.IsTyped → (c.tableAnnotations id).Gives IsOptionalRecord
  lockColumn : ∀ id, id.IsTyped → (c.lockColumn id).Gives IsOptionalText
  identifierName : ∀ id, id.IsTyped → (c.identifierName id).Gives IsOptionalText
  generator : ∀ id, id.IsTyped → (c.generator id).Gives IsOptionalText
  compositeName : ∀ id, id.IsTyped → (c.compositeName id).Gives IsText
  referenceName : ∀ f b, f.IsTyped → (c.referenceName f b).Gives IsText
  collectionName : ∀ f b, f.IsTyped → (c.collectionName f b).Gives IsText
  skipsReference : ∀ f, f.IsTyped → (c.skipsReference f).Gives fun _ => True
  skipsCollection : ∀ f, f.IsTyped → (c.skipsCollection f).Gives fun _ => True
  isInverse : ∀ f, f.IsTyped → (c.isInverse f).Gives fun _ => True
  isLazy : ∀ f, f.IsTyped → (c.isLazy f).Gives fun _ => True

namespace ForeignKey
variable {f : ForeignKey}

theorem IsTyped.suffix_isOk (h : f.IsTyped) : ∃ s, f.suffix = .ok s := by
  have hname : ∀ n : Name, n.IsText →
      ∃ s, (do (← upperCamelName n).asText .notName : Answer String) = .ok s := by
    rintro _ ⟨s, rfl⟩
    exact ⟨_, rfl⟩
  unfold suffix
  split
  · rename_i col hcol
    exact hname col.name (h.2.2.1 col (by simp [hcol])).1
  · split
    · rename_i ht
      exact hname f.name (h.2.2.2.2.isText ht)
    · obtain ⟨s, hs⟩ := h.label_isOk
      rw [hs]
      exact hname (.text s) (isText_text s)

theorem IsTyped.suffixUnless_isOk (h : f.IsTyped) (once : Bool) :
    ∃ s, f.suffixUnless once = .ok s := by
  unfold suffixUnless
  split
  · exact ⟨"", rfl⟩
  · obtain ⟨s, hs⟩ := h.suffix_isOk
    exact ⟨"By" ++ s, by rw [hs]; rfl⟩

end ForeignKey

section
variable {className : TableId → Answer Name}

theorem classReferenceName_gives (hc : ∀ id : TableId, id.IsTyped → (className id).Gives IsText)
    {f : ForeignKey} (hf : f.IsTyped) (once : Bool) :
    (classReferenceName className f once).Gives IsText := by
  obtain ⟨_, hn, n, rfl⟩ := hc f.target hf.2.1
  obtain ⟨s, hs⟩ := hf.suffixUnless_isOk once
  refine ⟨_, ?_, isText_text (decapitalize (upperCamel (unqualify n) ++ s))⟩
  rw [classReferenceName, hn, hs]
  rfl

theorem classCollectionName_gives (hc : ∀ id : TableId, id.IsTyped → (className id).Gives IsText)
    {f : ForeignKey} (hf : f.IsTyped) (once : Bool) :
    (classCollectionName className f once).Gives IsText := by
  obtain ⟨_, hn, n, rfl⟩ := hc f.table hf.1
  obtain ⟨s, hs⟩ := hf.suffixUnless_isOk once
  refine ⟨_, ?_, isText_text (plural (decapitalize (unqualify n)) ++ s)⟩
  rw [classCollectionName, hn, hs]
  rfl

theorem classIdName_gives (hc : ∀ id : TableId, id.IsTyped → (className id).Gives IsText)
    {id : TableId} (hid : id.IsTyped) : (classIdName className id).Gives IsText := by
  obtain ⟨_, hn, n, rfl⟩ := hc id hid
  refine ⟨_, ?_, isText_text (n ++ "Id")⟩
  rw [classIdName, hn]
  rfl

end

namespace Convention

theorem plain_isTotal : plain.IsTotal where
  className id hid := ⟨id.name, rfl, hid.1⟩
  propertyName _ n _ hn := ⟨n, rfl, hn⟩
  logicalType id col _ _ hcol := by
    refine ⟨_, ?_, isText_text (Text.lower col.sqlType.shown)⟩
    simp only [plain, plainWith, asText_of_isText hcol.2.1]
    rfl
  isVersionColumn _ n _ _ := ⟨n.same "version", rfl, trivial⟩
  columnAnnotations _ _ _ _ := ⟨.null, rfl, .inl rfl⟩
  tableAnnotations _ _ := ⟨.null, rfl, .inl rfl⟩
  lockColumn _ _ := ⟨.null, rfl, isOptionalText_null⟩
  identifierName _ _ := ⟨.null, rfl, isOptionalText_null⟩
  generator _ _ := ⟨.null, rfl, isOptionalText_null⟩
  compositeName _ hid := classIdName_gives (fun id h => ⟨id.name, rfl, h.1⟩) hid
  referenceName _ b hf := classReferenceName_gives (fun id h => ⟨id.name, rfl, h.1⟩) hf b
  collectionName _ b hf := classCollectionName_gives (fun id h => ⟨id.name, rfl, h.1⟩) hf b
  skipsReference _ _ := ⟨false, rfl, trivial⟩
  skipsCollection _ _ := ⟨false, rfl, trivial⟩
  isInverse _ _ := ⟨true, rfl, trivial⟩
  isLazy _ _ := ⟨true, rfl, trivial⟩

theorem ofColumn_isOk {col : Column} (h : col.IsTyped) :
    ∃ s, LogicalType.ofColumn col = .ok s := by
  obtain ⟨base, hbase⟩ : ∃ base, LogicalType.baseOf col = .ok base := by
    unfold LogicalType.baseOf
    split
    · exact ⟨LogicalType.baseType col.sqlType.shown, by rw [asText_of_isText h.2.1]; rfl⟩
    · exact ⟨"", rfl⟩
  rw [LogicalType.ofColumn, hbase]
  change ∃ s, (if LogicalType.countsDigits base col then _ else _) = Except.ok s
  split
  · rename_i hdigits
    -- the digits count only where there is a precision, which is a number then
    have ht : col.precision.truthy := by
      simp only [LogicalType.countsDigits, Bool.and_eq_true] at hdigits
      exact hdigits.2
    rcases h.2.2.2 col.precision (by simp) with hp | ⟨n, hp⟩
    · simp [hp, truthy, Scalar.truthy] at ht
    · rw [hp]
      exact ⟨_, rfl⟩
  · split
    · exact ⟨_, rfl⟩
    · exact ⟨_, rfl⟩

theorem qualify_isText (package : Name) {n : Name} (h : n.IsText) : (qualify package n).IsText := by
  unfold qualify
  split
  · exact isText_text _
  · exact h

theorem standardClassName_gives (package : Name) {id : TableId} (h : id.IsTyped) :
    (standardClassName package id).Gives IsText := by
  obtain ⟨n, hn⟩ := h.1
  refine ⟨_, ?_, qualify_isText package (isText_text (upperCamel n))⟩
  rw [standardClassName, hn, upperCamelName_text]
  rfl

theorem standardReferenceName_gives {className : TableId → Answer Name}
    (hc : ∀ id : TableId, id.IsTyped → (className id).Gives IsText) {f : ForeignKey}
    (hf : f.IsTyped) (once : Bool) : (standardReferenceName className f once).Gives IsText := by
  obtain ⟨stem, hstem⟩ : ∃ stem, keyStem? f once = .ok stem := by
    unfold keyStem?
    split
    · rename_i col hcol
      obtain ⟨n, hn⟩ := (hf.2.2.1 col (by simp [hcol])).1
      exact ⟨_, by rw [hn, wordsOfName_text]; rfl⟩
    · exact ⟨none, rfl⟩
  rw [standardReferenceName, hstem]
  cases stem with
  | some stem => exact ⟨_, rfl, isText_text _⟩
  | none => exact classReferenceName_gives hc hf once

/-- The standard convention is total over any choice of class names. -/
theorem standardWith_isTotal {className : TableId → Answer Name}
    (hc : ∀ id : TableId, id.IsTyped → (className id).Gives IsText) :
    (standardWith className).IsTotal where
  className := hc
  propertyName _ n _ hn := by
    obtain ⟨n, rfl⟩ := hn
    exact ⟨_, rfl, isText_text _⟩
  logicalType _ col _ _ hcol := by
    obtain ⟨s, hs⟩ := ofColumn_isOk hcol
    refine ⟨.text s, ?_, isText_text s⟩
    simp only [standardWith, hs]
    rfl
  isVersionColumn _ n _ hn := by
    refine ⟨isVersionName n.shown, ?_, trivial⟩
    simp only [standardWith, asText_of_isText hn]
    rfl
  columnAnnotations _ _ _ _ := ⟨.null, rfl, .inl rfl⟩
  tableAnnotations _ _ := ⟨.null, rfl, .inl rfl⟩
  lockColumn _ _ := ⟨.null, rfl, isOptionalText_null⟩
  identifierName _ _ := ⟨.null, rfl, isOptionalText_null⟩
  generator _ _ := ⟨.null, rfl, isOptionalText_null⟩
  compositeName _ hid := classIdName_gives hc hid
  referenceName _ b hf := standardReferenceName_gives hc hf b
  collectionName _ b hf := classCollectionName_gives hc hf b
  skipsReference _ _ := ⟨false, rfl, trivial⟩
  skipsCollection _ _ := ⟨false, rfl, trivial⟩
  isInverse _ _ := ⟨true, rfl, trivial⟩
  isLazy _ _ := ⟨true, rfl, trivial⟩

theorem standard_isTotal (package : Name) : (standard package).IsTotal :=
  standardWith_isTotal fun _ h => standardClassName_gives package h

end Convention
end EntityMapping
