import EntityMapping.Proofs.Derivation.Normalization

/-! # The default catalog and the default schema in names

Under the standard convention with any class names it makes no difference to a run, the names of the
associations apart, whether the default catalog and the default schema are left out of the schema
beforehand. The class names that the associations are named after are those of the identifiers as
they stand in the keys, so that there the defaults show when the class names show them.
-/
namespace EntityMapping
open Naming

variable {c : Convention} {s : Settings} {schema : Schema}

def Convention.standardFor (className : TableId → String) : Convention :=
  standardWith fun id => .ok (.text (className id))

namespace Convention
variable {className : TableId → String}

theorem standardFor_isTotal : (standardFor className).IsTotal :=
  standardWith_isTotal fun id _ => ⟨.text (className id), rfl, Document.isText_text _⟩

theorem standardFor_decidesAlike : (standardFor className).DecidesAlike s :=
  ⟨fun _ => rfl, fun _ => rfl, fun _ => rfl, fun _ => rfl⟩

/-- Class names that do not show the defaults do not bring them into other names. -/
theorem standardFor_keepsNames (h : ∀ id ∈ schema.ids, className (s.normalize id) = className id) :
    schema.KeepsNames (standardFor className) s := by
  intro t ht f hf
  have hfs : f ∈ schema.foreignKeys := Schema.mem_foreignKeys_iff.2 ⟨t, ht, hf⟩
  have howner := h _ (Schema.owner_mem_ids hfs)
  have htarget := h _ (Schema.target_mem_ids hfs)
  have hreference : classReferenceName (fun id => .ok (.text (className id))) (f.normalized s)
      (t.refersOnce f) = classReferenceName (fun id => .ok (.text (className id))) f
        (t.refersOnce f) := by
    simp only [classReferenceName, ForeignKey.normalized_target, htarget]
    rfl
  constructor
  · simp only [standardFor, standardWith, standardReferenceName, hreference]
    rfl
  · simp only [standardFor, standardWith, classCollectionName, ForeignKey.normalized_table, howner]
    rfl

end Convention

/-- The properties agree on what they are called and on what they lead to. -/
def Property.AgreesWith (p q : Property) : Prop :=
  p.name = q.name ∧ p.kind = q.kind ∧ p.columns = q.columns ∧
    p.role.association?.map Association.target = q.role.association?.map Association.target ∧
    p.role.otherSide?.map OtherSide.name = q.role.otherSide?.map OtherSide.name

/-- The entities agree on their names, their identifiers and versions, and on all properties. -/
structure Entity.AgreesWith (e e' : Entity) : Prop where
  name_eq : e.name = e'.name
  identifier_eq : e.identifier = e'.identifier
  version_eq : e.version = e'.version
  properties : List.Forall₂ Property.AgreesWith e.properties e'.properties

/-- The runs over the schema and over the normalized schema succeed together, and their entities
agree. -/
def Registry.HidesDefaults (c : Convention) (s : Settings) (schema : Schema)
    (h : s.Separates schema) : Prop :=
  ((∃ r, ofSchema c s schema = .ok r) ↔ ∃ r, ofSchema c s (schema.normalized s h) = .ok r) ∧
    ∀ r r', ofSchema c s schema = .ok r → ofSchema c s (schema.normalized s h) = .ok r' →
      List.Forall₂ Entity.AgreesWith r.entities r'.entities

theorem Property.agreesWith_normalized (p : Property) : p.AgreesWith (p.normalized s) := by
  refine ⟨rfl, (p.normalized_kind).symm, rfl, ?_, ?_⟩
  · rcases p with ⟨_, _ | _ | _ | _, _, _, _, _, _, _⟩ <;> rfl
  · rcases p with ⟨_, _ | _ | _ | _, _, _, _, _, _, _⟩ <;> rfl

theorem Entity.agreesWith_normalized (e : Entity) : e.AgreesWith (e.normalized s) :=
  ⟨rfl, rfl, rfl, List.forall₂_map_right_iff.2 (List.forall₂_same.2 fun p _ =>
    p.agreesWith_normalized)⟩

namespace Registry

theorem hidesDefaults_of_keepsNames (hc : c.IsTotal) (hd : c.DecidesAlike s) (hs : schema.IsTyped)
    (h : s.Separates schema) (hn : schema.KeepsNames c s) : HidesDefaults c s schema h := by
  refine ⟨(ofSchema_isOk_normalized hc hd hs h).symm, fun r r' hr hr' => ?_⟩
  refine (ofSchema_resembles hd hr hr').imp fun e e' he => ?_
  rw [he.eq hn]
  exact e.agreesWith_normalized

/-- Whatever the classes are called, it does not matter for the success of a run and for anything
but the names of properties whether the schema is normalized beforehand; and not for these names
either if the convention has the same names along normalized keys. -/
theorem ofSchema_normalized (className : TableId → String) (hs : schema.IsTyped)
    (h : s.Separates schema) :
    ((∃ r, ofSchema (.standardFor className) s schema = .ok r) ↔
      ∃ r, ofSchema (.standardFor className) s (schema.normalized s h) = .ok r) ∧
    ∀ r r', ofSchema (.standardFor className) s schema = .ok r →
      ofSchema (.standardFor className) s (schema.normalized s h) = .ok r' →
      r'.entities.map Entity.nameless = r.entities.map (fun e => (e.normalized s).nameless) ∧
      (schema.KeepsNames (.standardFor className) s →
        r'.entities = r.entities.map (Entity.normalized s)) := by
  have hd : (Convention.standardFor className).DecidesAlike s := Convention.standardFor_decidesAlike
  refine ⟨(ofSchema_isOk_normalized Convention.standardFor_isTotal hd hs h).symm, ?_⟩
  intro r r' hr hr'
  have hall := (ofSchema_resembles hd hr hr').flip
  exact ⟨hall.map_eq_map fun _ _ he => he.nameless_eq, fun hn => hall.eq_map fun _ _ he => he.eq hn⟩

end Registry

def Schema.publicShop : Schema where
  tables := [
    { Table.customers with
      id := { name := "customers", schema := "public" }
      foreign_owner := by decide },
    { Table.orders with
      id := { name := "orders", schema := "public" }
      foreignKeys := [{ ForeignKey.ofOrder with
        table := { name := "orders", schema := "public" }
        target := { name := "customers", schema := "public" } }]
      foreign_owner := by decide
      foreign_columns := by decide }]
  ids_plain := by decide
  ids_nodup := by decide
  targets_plain := by decide
  targets_known := by decide

/-- The schema that the shop is in goes without saying. -/
def Settings.inPublic : Settings := { defaultSchema := "public" }

theorem Settings.inPublic_separates : inPublic.Separates .publicShop := by decide

def TableId.camelName (id : TableId) : String := upperCamel id.name.shown

def TableId.schemaCamelName (id : TableId) : String := id.schema.word ++ id.camelName

def Registry.propertyNames (r : Registry) : List (List Name) :=
  r.entities.map fun e => e.properties.map Property.name

/-- With class names that do not show the schema, the entities of the two runs differ in their
tables and keys alone. -/
theorem Registry.ofSchema_normalized_publicShop :
    Schema.publicShop.IsTyped ∧ Settings.inPublic.Separates .publicShop ∧
    ∃ r r', ofSchema (.standardFor TableId.camelName) .inPublic .publicShop = .ok r ∧
      ofSchema (.standardFor TableId.camelName) .inPublic
        (Schema.publicShop.normalized _ Settings.inPublic_separates) = .ok r' ∧
      r.entities.map (fun e => e.table.id.schema) = (["public", "public"] : List Name) ∧
      r'.entities = r.entities.map (Entity.normalized .inPublic) := by
  have htyped : Schema.publicShop.IsTyped := by decide
  have hrun : (ofSchema (.standardFor TableId.camelName) .inPublic
      .publicShop).toOption.any fun r =>
        r.entities.map (fun e => e.table.id.schema) = (["public", "public"] : List Name) := by
    decide +kernel
  obtain ⟨r, hr, hids⟩ := exists_ok_of_toOption_any hrun
  obtain ⟨hsuccess, hentities⟩ :=
    ofSchema_normalized TableId.camelName htyped Settings.inPublic_separates
  obtain ⟨r', hr'⟩ := hsuccess.1 ⟨r, hr⟩
  have hkeeps : Schema.publicShop.KeepsNames (.standardFor TableId.camelName) .inPublic :=
    Convention.standardFor_keepsNames fun _ _ => rfl
  exact ⟨htyped, Settings.inPublic_separates, r, r', hr, hr', of_decide_eq_true hids,
    (hentities r r' hr hr').2 hkeeps⟩

/-- With class names that show the schema, the reference of the orders and the collection of the
customers show it too, unless the schema is normalized beforehand. -/
theorem Registry.not_hidesDefaults_publicShop :
    ¬ HidesDefaults (.standardFor TableId.schemaCamelName) .inPublic .publicShop
      Settings.inPublic_separates := by
  intro h
  have hrun : (ofSchema (.standardFor TableId.schemaCamelName) .inPublic
      .publicShop).toOption.any fun r =>
        r.propertyNames = ([["name", "publicOrderses"],
          ["version", "publicCustomers", "total"]] : List (List Name)) := by
    decide +kernel
  have hrun' : (ofSchema (.standardFor TableId.schemaCamelName) .inPublic
      (Schema.publicShop.normalized _ Settings.inPublic_separates)).toOption.any fun r =>
        r.propertyNames = ([["name", "orderses"],
          ["version", "customers", "total"]] : List (List Name)) := by
    decide +kernel
  obtain ⟨r, hr, hnames⟩ := exists_ok_of_toOption_any hrun
  obtain ⟨r', hr', hnames'⟩ := exists_ok_of_toOption_any hrun'
  have hsame : r.propertyNames = r'.propertyNames :=
    (h.2 r r' hr hr').map_eq_map fun e e' he => he.properties.map_eq_map fun p q hp => hp.1
  rw [of_decide_eq_true hnames, of_decide_eq_true hnames'] at hsame
  exact absurd hsame (by decide)

end EntityMapping
