import EntityMapping.Document.Shown

/-! # Columns

A column keeps its attributes as they were reported. Columns are the same when all their attributes
mean the same.
-/
namespace EntityMapping

/-- `Document.truthy` tells what the nullability means. -/
structure Column where
  name : Name
  sqlType : Name := .text "VARCHAR"
  nullable : Document := .bool true
  length : Document := .null
  precision : Document := .null
  scale : Document := .null
deriving DecidableEq

namespace Column

def names (cs : List Column) : List Name := cs.map name

def find? (cs : List Column) (name : Name) : Option Column := cs.find? fun c => c.name.same name

def key (c : Column) : Column :=
  ⟨c.name.key, c.sqlType.key, c.nullable.key, c.length.key, c.precision.key, c.scale.key⟩

def same (c d : Column) : Bool := c.key = d.key

@[simp] theorem same_self (c : Column) : c.same c = true := by simp [same]

theorem mem_of_find? {cs : List Column} {n : Name} {c : Column} (h : find? cs n = some c) :
    c ∈ cs ∧ c.name.same n :=
  ⟨List.mem_of_find?_eq_some h, by simpa using List.find?_some h⟩

/-- The column with the same name, if it is the same as the given one. -/
def own? (columns : List Column) (c : Column) : Option Column :=
  (find? columns c.name).filter c.same

theorem mem_of_own? {columns : List Column} {c d : Column} (h : own? columns c = some d) :
    d ∈ columns ∧ d.name.same c.name :=
  mem_of_find? (Option.filter_eq_some_iff.1 h).1

def text (c : Column) : Answer String := c.name.asText .notName

end Column
end EntityMapping
