import EntityMapping.Derivation.Run

/-! # The workbench

Tables can be bound one by one and entities made by hand, step by step. The workbench keeps both
under keys, beside the registry that they share.
-/
namespace EntityMapping

/-- Where an entity made by hand is: on the bench, or in the registry under its name. -/
inductive Place
  | bench (entity : Entity)
  | registry (name : Name)
deriving DecidableEq

structure HandMade where
  place : Place
  claims : Claims := {}
deriving DecidableEq

structure Workbench where
  registry : Registry := {}
  bindings : Named TableBinding := []
  handMade : Named HandMade := []
deriving DecidableEq

namespace Workbench

def entity? (w : Workbench) (key : Name) : Option Entity :=
  match w.handMade.get? key with
  | some ⟨.bench e, _⟩ => some e
  | some ⟨.registry name, _⟩ => w.registry.get? name
  | none => ((w.bindings.get? key).bind TableBinding.entity).bind w.registry.get?

def claims (w : Workbench) (key : Name) : Claims :=
  ((w.handMade.get? key).map HandMade.claims).getD {}

def putEntity (w : Workbench) (key : Name) (e : Entity) : Workbench :=
  match w.handMade.get? key with
  | some ⟨.bench _, claims⟩ =>
    { w with handMade := w.handMade.set key ⟨.bench e, claims⟩ }
  | _ => { w with registry := w.registry.update e }

def putClaims (w : Workbench) (key : Name) (claims : Claims) : Workbench :=
  match w.handMade.get? key with
  | some h => { w with handMade := w.handMade.set key { h with claims } }
  | none => w

variable {α : Type}

def wanted (key : Name) : Option α → Answer α
  | some a => .ok a
  | none => .error ((key.plain?.map Malformed.missing).getD .notName)

def binding (w : Workbench) (key : Name) : Answer TableBinding := wanted key (w.bindings.get? key)

def asUsed (w : Workbench) (key : Name) : Answer Unit := do
  if (w.handMade.get? key).isNone then discard (w.binding key)

def entity (w : Workbench) (key : Name) : Answer Entity := do
  w.asUsed key
  match w.entity? key with
  | some e => pure e
  | none => throw .notRecord

def draft (w : Workbench) (key : Name) : Answer Draft := do
  let h ← wanted key (w.handMade.get? key)
  pure ⟨← w.entity key, h.claims⟩

/-- A step on the entity of a key; what it did before a refusal stays. -/
def onEntity (key : Name) (step : Entity → Outcome Entity α) (w : Workbench) :
    Outcome Workbench α :=
  .ask (w.entity key) w fun e => (step e).onState (w.putEntity key)

def onDraft (key : Name) (step : Draft → Outcome Draft α) (w : Workbench) :
    Outcome Workbench α :=
  .ask (w.draft key) w fun d => (step d).onState fun d =>
    (w.putEntity key d.entity).putClaims key d.claims

def place (key : Name) (b : TableBinding) (w : Workbench) : Outcome Workbench Unit :=
  .ask key.asKey w fun key => .done () { w with bindings := w.bindings.set key b }

variable (c : Convention) (s : Settings)

/-- Binds a table and keeps the binding; after a refusal an earlier one stays. -/
def bind (schema : Schema) (key : Name) (t : Table) (w : Workbench) :
    Outcome Workbench TableBinding :=
  let o := w.registry.bind c s schema t
  (o.onState fun registry => { w with registry }).andThen fun b w =>
  (place key b w).map fun () => b

def advance (key : Name) (stage : Stage) (w : Workbench) : Outcome Workbench Unit :=
  .ask (w.binding key) w fun b =>
  .granted (b.advance stage) w fun b => .done () { w with bindings := w.bindings.set key b }

def index (schema : Schema) (w : Workbench) : Outcome Workbench ReferenceIndex :=
  .ask (ReferenceIndex.ofSchema c s schema) w fun x => .done x w

def collect (schema : Schema) (key : Name) (w : Workbench) :
    Outcome Workbench (List Property) :=
  .ask (w.binding key) w fun b =>
  (w.index c s schema).andThen fun x w =>
  let o := w.registry.collect c x b
  let w := { w with registry := o.state }
  match o.answer with
  | .ok (ps, b) => ⟨.ok ps, { w with bindings := w.bindings.set key b }, o.warnings⟩
  | .error r => ⟨.error r, w, o.warnings⟩

def handMadeEntity (t : Table) (name : Name) : Entity :=
  { name, shortName := name, table := t, tableId := t.id }

/-- An entity without a name of its own is called after the class of its table, which is asked for
in any case. -/
def make (key : Name) (t : Table) (name : Option Name) (w : Workbench) :
    Outcome Workbench Unit :=
  .ask (c.className t.id) w fun className =>
  let e := handMadeEntity t (name.getD className)
  .ask key.asKey w fun key =>
  .done () { w with handMade := w.handMade.set key ⟨.bench e, {}⟩ }

def claim (col : Column) (d : Draft) : Outcome Draft Unit :=
  .ask col.name.asKey d fun _ => d.claim col

def claimAll (key : Name) : List Column → Workbench → Outcome Workbench Unit
  | [], w => .done () w
  | col :: cols, w => (w.onDraft key (claim col)).andThen fun _ w => claimAll key cols w

/-- Claims column after column and passes over those that are claimed. -/
def claimFree : List Column → Draft → Outcome Draft Unit
  | [], d => .done () d
  | col :: cols, d =>
    .ask col.name.asKey d fun _ => claimFree cols { d with claims := d.claims.insert col }

def collectFor (schema : Schema) (key : Name) (w : Workbench) :
    Outcome Workbench (List Property) :=
  .ask (w.asUsed key) w fun _ =>
  (w.index c s schema).andThen fun x w => w.onEntity key fun e => e.collect c x w.registry

/-- Registers the entity of a key; the answer is the entity that already has its name, if any. -/
def register (key : Name) (w : Workbench) : Outcome Workbench (Option Entity) :=
  .ask (w.entity key) w fun e =>
  .ask e.name.asKey w fun name =>
  match w.registry.register e with
  | .error existing => .done (some existing) w
  | .ok registry =>
    .done none { w with
      registry
      handMade := w.handMade.set key ⟨.registry name, w.claims key⟩ }

end Workbench
end EntityMapping
