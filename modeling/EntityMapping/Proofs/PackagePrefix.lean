import EntityMapping.Convention.Standard
import EntityMapping.Proofs.Derivation.Renaming
import EntityMapping.Proofs.Outcome

/-! # Packages

Under the standard convention a package is put in front of every entity name and does nothing else.
The names go through the registry, the index of the keys and the names of associations, are
qualified on the way and unqualified again, and may have dots of their own.
-/
namespace EntityMapping
open Naming

theorem takeWhile_append_cons {α : Type} {q : α → Bool} {a : α} (ha : q a = false) (l m : List α) :
    (l ++ a :: m).takeWhile q = l.takeWhile q := by
  induction l with
  | nil => simp [ha]
  | cons b l ih =>
    rw [List.cons_append, List.takeWhile_cons, List.takeWhile_cons, ih]

theorem unqualify_append (p n : String) : unqualify (p ++ "." ++ n) = unqualify n := by
  have hdot : (p ++ "." ++ n).toList.reverse = n.toList.reverse ++ '.' :: p.toList.reverse := by
    simp
  rw [unqualify, unqualify, hdot, takeWhile_append_cons (by simp)]

/-- The name in a package; nothing can be put in front of what is no text. -/
def Document.inPackage (p : String) : Name → Name
  | .text n => .text (p ++ "." ++ n)
  | n => n

namespace Document
variable {p : String}

@[simp] theorem inPackage_text (n : String) : inPackage p (.text n) = .text (p ++ "." ++ n) := rfl

theorem inPackage_of_not_isText {n : Name} (h : ¬ n.IsText) : n.inPackage p = n := by
  unfold inPackage
  split
  · rename_i s
    exact absurd (isText_text s) h
  · rfl

theorem same_inPackage (m n : Name) : (m.inPackage p).same (n.inPackage p) = m.same n := by
  rw [Bool.eq_iff_iff, same_iff, same_iff]
  by_cases hm : m.IsText
  · obtain ⟨a, rfl⟩ := hm
    by_cases hn : n.IsText
    · obtain ⟨b, rfl⟩ := hn
      simp
    · rw [inPackage_of_not_isText hn]
      exact iff_of_false (fun h => hn ⟨_, key_eq_text.1 h.symm⟩)
        fun h => hn ⟨_, key_eq_text.1 h.symm⟩
  · rw [inPackage_of_not_isText hm]
    by_cases hn : n.IsText
    · obtain ⟨b, rfl⟩ := hn
      exact iff_of_false (fun h => hm ⟨_, key_eq_text.1 h⟩) fun h => hm ⟨_, key_eq_text.1 h⟩
    · rw [inPackage_of_not_isText hn]

theorem isPlain_inPackage (n : Name) : (n.inPackage p).isPlain = n.isPlain := by
  unfold inPackage
  split <;> rfl

theorem unqualifyName_inPackage (n : Name) :
    unqualifyName (n.inPackage p) = unqualifyName n := by
  unfold inPackage
  split
  · rw [unqualifyName_text, unqualifyName_text, unqualify_append]
  · rfl

end Document

def Renaming.package (p : String) : Renaming where
  rename := Document.inPackage p
  same_rename := Document.same_inPackage
  isPlain_rename := Document.isPlain_inPackage
  unqualify_rename := Document.unqualifyName_inPackage

namespace Convention

theorem standardClassName_empty {id : TableId} {n : String} (h : id.name = .text n) :
    standardClassName (.text "") id = .ok (.text (upperCamel n)) := by
  rw [standardClassName, h]
  rfl

theorem standardClassName_text {p : String} (hp : p ≠ "") {id : TableId} {n : String}
    (h : id.name = .text n) :
    standardClassName (.text p) id = .ok (.text (p ++ "." ++ upperCamel n)) := by
  have htruthy : (Document.text p).truthy := by
    simp [Document.truthy, Scalar.truthy, hp]
  rw [standardClassName, h]
  exact congrArg Except.ok (if_pos htruthy)

theorem standardClassName_package {p : String} (hp : p ≠ "") {id : TableId} (h : id.IsNamed) :
    standardClassName (.text p) id =
      Document.inPackage p <$> standardClassName (.text "") id := by
  obtain ⟨n, hn⟩ := h
  rw [standardClassName_text hp hn, standardClassName_empty hn]
  rfl

/-- A package changes nothing but the names of entities and the classes of identifiers. -/
theorem standard_renames {p : String} (hp : p ≠ "") :
    (standard (.text "")).Renames (.package p) (standard (.text p)) where
  className id h := standardClassName_package hp h
  compositeName id h := by
    obtain ⟨n, hn⟩ := h
    have hclass : ∀ m, classIdName (fun _ => .ok (.text m)) id = .ok (.text (m ++ "Id")) :=
      fun m => rfl
    simp only [standard, standardWith, classIdName, standardClassName_text hp hn,
      standardClassName_empty hn] at hclass ⊢
    rw [hclass, hclass]
    exact congrArg (fun m => Except.ok (Document.text m)) String.append_assoc
  referenceName f h := by
    funext once
    have hname := standardClassName_package hp h
    simp only [standard, standardWith, standardReferenceName, classReferenceName, hname,
      bind_map_left, Document.unqualifyName_inPackage]
  collectionName f h := by
    funext once
    have hname := standardClassName_package hp h
    simp only [standard, standardWith, classCollectionName, hname, bind_map_left,
      Document.unqualifyName_inPackage]
  propertyName := rfl
  logicalType := rfl
  isVersionColumn := rfl
  columnAnnotations := rfl
  tableAnnotations := rfl
  lockColumn := rfl
  identifierName := rfl
  generator := rfl
  skipsReference := rfl
  skipsCollection := rfl
  isInverse := rfl
  isLazy := rfl

end Convention

namespace Registry
variable {s : Settings} {schema : Schema}

/-- A run under a package is the run without one, with the package in front of every entity name:
in the entities, in what leads to them, in the imports, or in the refusal. -/
theorem ofSchema_package {p : String} (hp : p ≠ "") (hs : ∀ id ∈ schema.ids, id.IsNamed) :
    ofSchema (.standard (.text p)) s schema =
      (Renaming.package p).result (renamed (.package p))
        (ofSchema (.standard (.text "")) s schema) :=
  ofSchema_renamed (Convention.standard_renames hp) hs

end Registry

def Table.dottedCustomers : Table :=
  { Table.customers with
    id := { name := ".." }
    foreign_owner := by decide }

def Table.dottedOrders : Table :=
  { Table.orders with
    id := { name := "order.lines" }
    foreignKeys := [{ ForeignKey.ofOrder with
      table := { name := "order.lines" }
      target := { name := ".." } }]
    foreign_owner := by decide
    foreign_columns := by decide }

def Schema.dottedShop : Schema where
  tables := [.dottedCustomers, .dottedOrders]
  ids_plain := by decide
  ids_nodup := by decide
  targets_plain := by decide
  targets_known := by decide

def Registry.entityNames (r : Registry) : List (String × List String) :=
  r.entities.map fun e => (e.name.shown, e.associations.map fun p => p.type.shown)

/-- A package with a dot in front of an entity name that consists of dots. -/
theorem Registry.ofSchema_package_dottedShop :
    "com.acme" ≠ "" ∧ (∀ id ∈ Schema.dottedShop.ids, id.IsNamed) ∧
    ∃ r, ofSchema (.standard (.text "")) {} .dottedShop = .ok r ∧
      r.entityNames = [("..", ["OrderLines"]), ("OrderLines", [".."])] ∧
      ofSchema (.standard (.text "com.acme")) {} .dottedShop =
        .ok (r.renamed (.package "com.acme")) ∧
      (r.renamed (.package "com.acme")).entityNames =
        [("com.acme...", ["com.acme.OrderLines"]), ("com.acme.OrderLines", ["com.acme..."])] := by
  have hp : "com.acme" ≠ "" := by decide
  have hs : ∀ id ∈ Schema.dottedShop.ids, id.IsNamed := by decide
  have hrun : (ofSchema (.standard (.text "")) {} .dottedShop).toOption.any fun r =>
      r.entityNames = [("..", ["OrderLines"]), ("OrderLines", [".."])] ∧
      (r.renamed (.package "com.acme")).entityNames =
        [("com.acme...", ["com.acme.OrderLines"]), ("com.acme.OrderLines", ["com.acme..."])] := by
    decide +kernel
  obtain ⟨r, hr, hnames⟩ := exists_ok_of_toOption_any hrun
  obtain ⟨hnames, hnames'⟩ := of_decide_eq_true hnames
  have hpackage := ofSchema_package (s := {}) hp hs
  rw [hr] at hpackage
  exact ⟨hp, hs, r, hr, hnames, hpackage, hnames'⟩

end EntityMapping
