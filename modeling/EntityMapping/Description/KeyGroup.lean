import EntityMapping.Description.Rows

/-! # Groups of foreign key rows

The rows that share a constraint name make one foreign key; a row without a name makes one alone.
-/
namespace EntityMapping

structure KeyGroup where
  name : Name
  first : KeyRow
  rest : List KeyRow := []

namespace KeyGroup

def rows (g : KeyGroup) : List KeyRow := g.first :: g.rest

/-- Puts a row into the group of that name, a new one at the end if there is none. -/
def place (name : Name) (row : KeyRow) : List KeyGroup → List KeyGroup
  | [] => [{ name, first := row }]
  | g :: gs =>
    if g.name.same name then { g with rest := g.rest ++ [row] } :: gs
    else g :: place name row gs

/-- Only a name that is not empty is shared. -/
def addRow (gs : List KeyGroup) (row : Name × KeyRow) : List KeyGroup :=
  if row.1.truthy then place row.1 row.2 gs else gs ++ [{ name := .null, first := row.2 }]

def ofRows (rows : List (Name × KeyRow)) : List KeyGroup := rows.foldl addRow []

end KeyGroup

def KeyRow.named (row : KeyRow) : Answer (Name × KeyRow) := do
  pure (← row.name, row)

end EntityMapping
