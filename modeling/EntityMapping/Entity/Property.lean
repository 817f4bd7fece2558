import EntityMapping.Annotations
import EntityMapping.Relational.Key

/-! # Properties of an entity

Scalars and the version hold a column, a reference leads along a foreign key to one entity, and a
collection leads back from it to many.
-/
namespace EntityMapping

inductive RoleKind
  | scalar
  | version
  | reference
  | collection
deriving DecidableEq

def RoleKind.text : RoleKind → String
  | .scalar => "scalar"
  | .version => "version"
  | .reference => "many-to-one"
  | .collection => "one-to-many"

structure Association where
  target : Name := .null
  key : Option ForeignKey := none
  isLazy : Document := .bool true
deriving DecidableEq

/-- The name of the reference that a collection is the other side of, missing when there is none. -/
structure OtherSide where
  name : Name := .null
  isInverse : Document := .bool false
deriving DecidableEq

inductive Role
  | scalar
  | version
  | reference (association : Association)
  | collection (association : Association) (other : OtherSide)
deriving DecidableEq

namespace Role

def kind : Role → RoleKind
  | scalar => .scalar
  | version => .version
  | reference _ => .reference
  | collection _ _ => .collection

def association? : Role → Option Association
  | reference a => some a
  | collection a _ => some a
  | _ => none

def otherSide? : Role → Option OtherSide
  | collection _ o => some o
  | _ => none

end Role

/-- The type of an association is the name of the entity that it leads to. The flags are kept as
they are given; annotations count when they are shown. -/
structure Property where
  name : Name
  role : Role := .scalar
  columns : List Column := []
  type : Name := .null
  nullable : Document := .bool true
  mutable : Document := .bool true
  inIdentifier : Bool := false
  annotations : Answer Annotations := .ok []
deriving DecidableEq

namespace Property

def kind (p : Property) : RoleKind := p.role.kind

def isAssociation (p : Property) : Bool := p.role.association?.isSome

def foreignKey? (p : Property) : Option ForeignKey := p.role.association?.bind Association.key

end Property
end EntityMapping
