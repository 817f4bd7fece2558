import EntityMapping.Entity.Identifier
import EntityMapping.Naming.Composed
import EntityMapping.Refusal
import EntityMapping.Relational.Table

/-! # Entities

An entity grows by properties with new names. Once it is sealed it takes nothing but collections.
-/
namespace EntityMapping

structure Entity where
  name : Name
  shortName : Name
  table : Table
  tableId : TableId
  identifier : Identifier := {}
  properties : List Property := []
  discriminator : Name := .null
  version : Option Property := none
  annotations : Annotations := []
  isSealed : Bool := false
deriving DecidableEq

namespace Entity

def hasIdentifier (e : Entity) : Bool := e.identifier.kind ≠ .none

/-- The names in use, those of the identifier first. -/
def names (e : Entity) : List Name :=
  (if e.hasIdentifier then e.identifier.names else []) ++ e.properties.map Property.name

def freeze (e : Entity) : Entity := { e with isSealed := true }

/-- Appends a property; the seal is looked at before the name. -/
def add (e : Entity) (p : Property) : Except Refusal Entity :=
  if e.isSealed && p.kind ≠ .collection then .error (.sealedEntity e.name p.kind p.name)
  else if Naming.isTaken e.names p.name then .error (.nameInUse e.name p.name)
  else .ok { e with properties := e.properties ++ [p] }

theorem eq_of_add {e e' : Entity} {p : Property} (h : e.add p = .ok e') :
    e' = { e with properties := e.properties ++ [p] } := by
  unfold add at h
  split at h
  · cases h
  · split at h
    · cases h
    · exact (Except.ok.inj h).symm

theorem names_add {e e' : Entity} {p : Property} (h : e.add p = .ok e') :
    e'.names = e.names ++ [p.name] := by
  simp [eq_of_add h, names, hasIdentifier]

def property? (e : Entity) (name : Name) : Option Property :=
  (e.properties ++ e.identifier.properties).find? fun p => p.name.same name

def ofKinds (e : Entity) (kinds : List RoleKind) : List Property :=
  e.properties.filter fun p => p.kind ∈ kinds

def scalars (e : Entity) : List Property := e.ofKinds [.scalar]

def references (e : Entity) : List Property := e.ofKinds [.reference]

def collections (e : Entity) : List Property := e.ofKinds [.collection]

def associations (e : Entity) : List Property := e.ofKinds [.reference, .collection]

/-- The first reference along the foreign key. -/
def referenceFor? (e : Entity) (f : ForeignKey) : Option Property :=
  e.references.find? fun p => p.foreignKey?.any f.same

end Entity
end EntityMapping
