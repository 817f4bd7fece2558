import EntityMapping.Malformed
import EntityMapping.Relational.TableId
import EntityMapping.Text.CharClass
import EntityMapping.Text.Recase

/-! # Configuration from the environment

The values of five variables, each given or not. An empty value counts as not given, but for the
package, which may be empty.
-/
namespace EntityMapping

structure Environment where
  databaseUrl : Option String := none
  package : Option String := none
  defaultCatalog : Option String := none
  defaultSchema : Option String := none
  basicComposites : Option String := none
deriving DecidableEq

namespace Environment

def values (e : Environment) : List String :=
  [e.databaseUrl, e.package, e.defaultCatalog, e.defaultSchema, e.basicComposites].filterMap id

/-- An environment is set up by the system, which has to take its values. -/
def setUp (e : Environment) : Answer Environment := do
  e.values.forM fun v => discard (Text.nulFree v)
  pure e

end Environment

/-- A switch is on for four words in any case and with blanks around them. -/
def switch (value : Option String) (default : Bool) : Bool :=
  match value with
  | none => default
  | some s => Text.lower (Text.trim s) ∈ ["1", "true", "yes", "on"]

def switchOf (value : Option String) (default : Bool) : Answer Bool := do
  pure (switch (← value.mapM Text.nulFree) default)

structure Configuration where
  databaseUrl : String
  package : String
  settings : Settings
deriving DecidableEq

def Configuration.ofEnvironment (e : Environment) : Configuration :=
  let given (s : Option String) := s.filter fun v => !v.isEmpty
  { databaseUrl := (given e.databaseUrl).getD "sqlite:///schema.db"
    package := e.package.getD ""
    settings := {
      defaultCatalog := .ofText? (given e.defaultCatalog)
      defaultSchema := .ofText? (given e.defaultSchema)
      basicComposites := switch e.basicComposites false } }

end EntityMapping
