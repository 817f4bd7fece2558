import EntityMapping.Derivation.TableBinding

/-! # A run over a schema

Every table is bound in the order of the schema, and then the collections of every entity are
added in the same order. The first refusal ends the run.
-/
namespace EntityMapping.Registry
variable (c : Convention) (s : Settings)

def bindAll (schema : Schema) : List Table → Registry → Outcome Registry (List TableBinding)
  | [], r => .done [] r
  | t :: ts, r => (r.bind c s schema t).andThen fun b r =>
      (bindAll schema ts r).map (b :: ·)

def collectAll (x : ReferenceIndex) :
    List TableBinding → Registry → Outcome Registry (List TableBinding)
  | [], r => .done [] r
  | b :: bs, r => (r.collect c x b).andThen fun a r =>
      (collectAll x bs r).map (a.2 :: ·)

/-- Both passes over the tables, for which the keys are gathered first; the answer is how far each
table has come. -/
def derive (schema : Schema) : Outcome Registry (List TableBinding) :=
  .ask (ReferenceIndex.ofSchema c s schema) {} fun x =>
  (bindAll c s schema schema.tables {}).andThen fun bs r => collectAll c x bs r

/-- The registry of all entities of a schema, handed out when the whole run succeeds. -/
def ofSchema (schema : Schema) : Except Refusal Registry :=
  let o := derive c s schema
  o.answer.map fun _ => o.state

end EntityMapping.Registry
