import EntityMapping.Derivation.Collection

/-! # Binding tables to entities

A table is bound when its entity is complete but for the collections and has found its place in
the registry. The collections follow when every table is bound.
-/
namespace EntityMapping

structure TableBinding where
  table : Table
  stage : Stage := .init
  tableId : Option TableId := none
  entity : Option Name := none
deriving DecidableEq

def TableBinding.advance (b : TableBinding) (wanted : Stage) : Except Refusal TableBinding :=
  if b.stage.next? = some wanted then .ok { b with stage := wanted }
  else .error (.outOfOrder b.table.id b.stage wanted)

variable (c : Convention) (s : Settings)

def Entity.blank (t : Table) : Answer Entity := do
  let id := s.normalize t.id
  let name ← c.className id
  pure {
    name
    shortName := ← Naming.unqualifyName name
    table := t
    tableId := id
    discriminator := name
    annotations := ← (← c.tableAnnotations id).annotations }

/-- The identifier, the version, the references and the scalars. Behind each of these steps the
table moves on. -/
def Draft.fill (schema : Schema) (b : TableBinding) (d : Draft) : Outcome Draft TableBinding :=
  (d.identify c s).andThen fun _ d =>
  .granted (b.advance .identified) d fun b =>
  (d.addVersionOf c).andThen fun _ d =>
  .granted (b.advance .versioned) d fun b =>
  (d.addReferencesOf c s schema).andThen fun _ d =>
  .granted (b.advance .referencing) d fun b =>
  (d.addScalarsOf c).andThen fun _ d =>
  .granted (b.advance .scalarsBound) d fun b => .done b d

namespace Registry

def enter (r : Registry) (e : Entity) : Except Refusal Registry :=
  match r.register e.freeze with
  | .error existing => .error (.duplicateName e.name e.table.id existing.table.id)
  | .ok r => .ok (r.addImport e.name e.name)

/-- Binds a table; where its entity is refused, the registry stays as it was. -/
def bind (schema : Schema) (t : Table) (r : Registry) : Outcome Registry TableBinding :=
  let b : TableBinding := { table := t, tableId := some (s.normalize t.id) }
  .granted (b.advance .normalized) r fun b =>
  .ask (Entity.blank c s t) r fun e =>
  let o := Draft.fill c s schema b ⟨e, {}⟩
  match o.answer with
  | .error refusal => ⟨.error refusal, r, o.warnings⟩
  | .ok b => match r.enter o.state.entity with
    | .error refusal => ⟨.error refusal, r, o.warnings⟩
    | .ok r =>
      let b := { b with entity := some o.state.entity.name }
      (.granted (b.advance .registered) r fun b => .done b r : Outcome _ _).after o.warnings

/-- Adds the collections of an entity. Where the entity lacks the identifier that they need, they
are left out. -/
def addCollectionsOf (x : ReferenceIndex) (e : Entity) (r : Registry) :
    Outcome Registry (List Property) :=
  let o := e.collect c x r
  match o.answer with
  | .error (.noIdentifier name table) => .warn (.collectionsSkipped name table) r (.done [] r)
  | answer => ⟨answer, r.update o.state, o.warnings⟩

/-- Adds the collections of a registered table, once. -/
def collect (x : ReferenceIndex) (b : TableBinding) (r : Registry) :
    Outcome Registry (List Property × TableBinding) :=
  if b.stage ≠ .registered then .refused (.notRegistered b.table.id b.stage) r
  else match b.entity.bind r.get? with
    | none => .refused (.unanswered .notRecord) r
    | some e => (addCollectionsOf c x e r).andThen fun ps r =>
      .granted (b.advance .collecting) r fun b => .done (ps, b) r

end Registry
end EntityMapping
