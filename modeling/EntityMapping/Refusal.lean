import EntityMapping.Derivation.Stage
import EntityMapping.Entity.Property

/-! # Refusals

Why an entity is not derived, or takes no further property.
-/
namespace EntityMapping

/-- The last one stands for an answer that is wanted and that cannot be had. -/
inductive Refusal
  | duplicateName (entity : Name) (table existing : TableId)
  | claimedTwice (entity : Name) (table : TableId) (column : Name)
  | sharedName (entity : Name) (table : TableId) (first second property : Name)
  | noIdentifier (entity : Name) (table : TableId)
  | sealedEntity (entity : Name) (kind : RoleKind) (property : Name)
  | nameInUse (entity property : Name)
  | outOfOrder (table : TableId) (current wanted : Stage)
  | notRegistered (table : TableId) (current : Stage)
  | unanswered (fault : Malformed)
deriving DecidableEq

def columnList (columns : List Name) : String :=
  ", ".intercalate (columns.map fun c => "'" ++ c.shown ++ "'")

def boundTwice (entity : Name) (table : TableId) (columns : List Name) : Answer String := do
  pure ("Column " ++ columnList columns ++ " of '" ++ (← table.text) ++
    "' is bound more than once on entity '" ++ entity.shown ++ "'")

def Refusal.message : Refusal → Answer String
  | .duplicateName entity table existing => do
    pure ("Duplicate class name '" ++ entity.shown ++ "' generated for '" ++ (← table.text) ++
      "'. Same name where generated for '" ++ (← existing.text) ++ "'")
  | .claimedTwice entity table column => boundTwice entity table [column]
  | .sharedName entity table first second .null => boundTwice entity table [first, second]
  | .sharedName entity table first second property => do
    pure ("Columns " ++ columnList [first, second] ++ " of '" ++ (← table.text) ++
      "' both map to property '" ++ property.shown ++ "' on entity '" ++ entity.shown ++ "'")
  | .noIdentifier entity table => do
    pure ("Entity '" ++ entity.shown ++ "' (" ++ (← table.text) ++
      ") has no primary key and cannot be the target of a one-to-many association")
  | .sealedEntity entity kind property =>
    .ok ("Entity '" ++ entity.shown ++ "' is registered; cannot add " ++ kind.text ++
      " property '" ++ property.shown ++ "'")
  | .nameInUse entity property =>
    .ok ("Entity '" ++ entity.shown ++ "' already has a property named '" ++ property.shown ++ "'")
  | .outOfOrder table current wanted => do
    pure ("Cannot move " ++ (← table.text) ++ " from " ++ current.text ++ " to " ++ wanted.text)
  | .notRegistered table current => do
    pure ((← table.text) ++
      " must be registered before incoming associations are bound (state: " ++
      current.text ++ ")")
  | .unanswered fault => .error fault

end EntityMapping
