import EntityMapping.Document.Named

/-! # Annotations

Lists under a key, attached to tables, columns, entities and properties. They carry no meaning of
their own.
-/
namespace EntityMapping

abbrev Annotations := Named Document

/-- Annotations from keys with their values, of which the last one under a key counts. -/
def Annotations.ofPairs (ds : List Document) : Answer Annotations :=
  ds.foldlM (fun as d => do
    let pair ← d.asPair
    pure (Named.set pair.1 pair.2 as)) []

/-- The annotations that a value gives, none when it is empty: those of a record, or pairs. -/
def Document.annotations (d : Document) : Answer Annotations :=
  match d with
  | .record fields => .ok (fields.map fun f => (.text f.1, f.2))
  | d => if d.truthy then do Annotations.ofPairs (← d.entries) else .ok []

def Annotations.lists (as : Annotations) : Answer (Named (List Document)) :=
  as.mapM fun a => do pure (a.1, ← a.2.entries)

end EntityMapping
