import EntityMapping.Refusal

/-! # Warnings

What is left out of a schema or an entity without refusing the rest.
-/
namespace EntityMapping

inductive Warning
  | noPrimaryKey (table : TableId) (entity : Name)
  | lockColumnMissing (column : Name) (table : TableId)
  | lockColumnClaimed (column : Name) (table : TableId)
  | unusableVersion (column : Name) (table : TableId) (type : Name)
  | targetOutside (key : ForeignKey)
  | ownerUnbound (key : ForeignKey)
  | collectionsSkipped (entity : Name) (table : TableId)
  | unknownLocalColumn (key : Name) (table : TableId) (column : Name)
  | unreadableKey (key : Name) (table : TableId)
deriving DecidableEq

def Warning.message : Warning → Answer String
  | .noPrimaryKey table entity => do
    pure ("No primary key found for " ++ (← table.text) ++ ", entity " ++ entity.shown ++
      " has no identifier")
  | .lockColumnMissing column table => do
    pure ("Column " ++ column.shown ++ " wanted for version not found in " ++ (← table.text))
  | .lockColumnClaimed column table => do
    pure ("Column " ++ column.shown ++ " wanted for version in " ++ (← table.text) ++
      " is already bound")
  | .unusableVersion column table type => do
    pure ("Column " ++ column.shown ++ " in " ++ (← table.text) ++ " has type " ++ type.shown ++
      " which cannot be used as version")
  | .targetOutside key => do
    pure ("Foreign key " ++ (← key.text) ++ " references " ++ (← key.target.text) ++
      " which is not part of the schema, binding its columns as plain properties")
  | .ownerUnbound key => do
    pure ("No entity bound for " ++ (← key.table.text) ++ ", skipping collection for " ++
      (← key.text))
  | .collectionsSkipped entity table => do
    pure ((← (Refusal.noIdentifier entity table).message) ++
      "; skipping its one-to-many associations")
  | .unknownLocalColumn key table column => do
    pure ("Skipping foreign key " ++ key.word ++ " on " ++ (← table.text) ++ ": unknown column " ++
      column.shown)
  | .unreadableKey key table => do
    pure ("Skipping unreadable foreign key " ++ key.shown ++ " on " ++ (← table.text))

end EntityMapping
