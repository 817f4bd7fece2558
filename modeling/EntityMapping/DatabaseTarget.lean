import EntityMapping.FileTree
import EntityMapping.Inspection

/-! # Database targets

A database is named by its address, by a file, or by a folder that has a database file.
-/
namespace EntityMapping

def isAddress (target : String) : Bool := (target.splitOn "://").length > 1

def FileTree.databaseFile? (t : FileTree) (path : String) : Option String :=
  (if t.isFolder path then t.database? path else some path).filter t.hasFile

def FileTree.address (t : FileTree) (target : String) : Report String :=
  if isAddress target then pure target
  else match t.databaseFile? target with
    | some path => pure ("sqlite:///" ++ path)
    | none => Report.error (.noDatabase target)

/-- The address of the database that a target names, and its schema as an inspector reports it. -/
def FileTree.inspect (t : FileTree) (target : String) (schema : Name) (reported : Document) :
    Report (String × Schema) := do
  let url ← t.address target
  let read ← Schema.ofInspection url schema none reported
  pure (url, read)

end EntityMapping
