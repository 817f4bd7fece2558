import EntityMapping.Entity.Property

/-! # Identifiers

A simple identifier is one property. An embedded one is a component that holds several and has a
name of its own; a basic composite one is made of ordinary properties of the entity.
-/
namespace EntityMapping

inductive IdentifierKind
  | none
  | simple
  | embedded
  | basicComposite
deriving DecidableEq

def IdentifierKind.text : IdentifierKind → String
  | none => "none"
  | simple => "simple"
  | embedded => "embedded"
  | basicComposite => "basic-composite"

def defaultGenerator : Name := .text "assigned"

/-- The identifier of an entity without primary key has kind `none`. -/
structure Identifier where
  kind : IdentifierKind := .none
  properties : List Property := []
  name : Name := .null
  className : Name := .null
  generator : Name := defaultGenerator
deriving DecidableEq

namespace Identifier

def columns (i : Identifier) : List Column := i.properties.flatMap Property.columns

def isComposite (i : Identifier) : Bool :=
  i.kind = .embedded || i.kind = .basicComposite

def names (i : Identifier) : List Name :=
  match i.kind with
  | .simple | .embedded => [i.name]
  | .none | .basicComposite => i.properties.map Property.name

end Identifier
end EntityMapping
