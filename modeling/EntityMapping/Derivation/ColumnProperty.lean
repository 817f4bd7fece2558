import EntityMapping.Convention.Basic
import EntityMapping.Convention.LogicalType
import EntityMapping.Derivation.Draft
import EntityMapping.Document.Named
import EntityMapping.Relational.TableId

/-! # Properties of columns

The identifier takes the columns of the primary key, the version at most one of the others, and
every column that no property holds in the end becomes a scalar.
-/
namespace EntityMapping
variable (c : Convention)

/-- The property of a single column; one in an identifier is never null. -/
def columnProperty (id : TableId) (name : Name) (col : Column) (role : Role)
    (inIdentifier : Bool) : Answer Property := do
  pure {
    name
    role
    columns := [col]
    type := ← c.logicalType id col inIdentifier
    nullable := if col.nullable.truthy then .bool (!inIdentifier) else col.nullable
    inIdentifier
    annotations := .ok (← (← c.columnAnnotations id col.name).annotations) }

def namesake? (done : Named Column) (name : Name) : Answer (Option Column) := do
  pure (done.get? (← name.asKey))

namespace Draft

/-- A given name goes before another one unless it is empty. -/
def prefer (given : Answer Name) (otherwise : Answer Name) : Answer Name := do
  let name ← given
  if name.truthy then pure name else otherwise

def claimKey (e : Entity) (name : Name) (col : Column) (claims : Claims) :
    Outcome Claims Property :=
  .ask (columnProperty c e.tableId name col .scalar true) claims fun p =>
  (claims.mark e col).map fun () => p

/-- The properties of a composite key, whose names have to differ. Every column is claimed in its
turn. -/
def keyProperties (e : Entity) :
    List Column → Named Column → Claims → Outcome Claims (List Property)
  | [], _, claims => .done [] claims
  | col :: cols, done, claims =>
    .ask (c.propertyName e.tableId col.name) claims fun name =>
    .ask (namesake? done name) claims fun
      | some d => .refused (.sharedName e.name e.table.id d.name col.name name) claims
      | none => (claimKey c e name col claims).andThen fun p claims =>
        (keyProperties e cols (done ++ [(name, col)]) claims).map (p :: ·)

/-- The identifier over a single column. A name that the convention gives to it goes before that of
the column. -/
def simpleIdentifier (e : Entity) (col : Column) (claims : Claims) : Outcome Claims Identifier :=
  .ask (prefer (c.identifierName e.tableId) (c.propertyName e.tableId col.name)) claims fun name =>
  (claimKey c e name col claims).andThen fun p claims =>
  .ask (prefer (c.generator e.tableId) (.ok defaultGenerator)) claims fun generator =>
  .done { kind := .simple, properties := [p], name, generator } claims

/-- The identifier over several properties: a component of its own, or the properties themselves
when basic composites are preferred. -/
def compositeIdentifier (s : Settings) (e : Entity) (properties : List Property) :
    Answer Identifier := do
  if s.basicComposites then pure { kind := .basicComposite, properties }
  else
    let className ← c.compositeName e.tableId
    let name ← prefer (c.identifierName e.tableId) (.ok "id")
    pure { kind := .embedded, properties, name, className }

def identifierOf (s : Settings) (e : Entity) (key : PrimaryKey) (claims : Claims) :
    Outcome Claims Identifier :=
  match key.columns with
  | [col] => simpleIdentifier c e col claims
  | cols => (keyProperties c e cols [] claims).andThen fun ps claims =>
    .ask (compositeIdentifier c s e ps) claims fun identifier => .done identifier claims

def identify (s : Settings) (d : Draft) : Outcome Draft Identifier :=
  match d.entity.table.primaryKey with
  | none =>
    .warn (.noPrimaryKey d.entity.table.id d.entity.name) d <|
    .done {} { d with entity := { d.entity with identifier := {} } }
  | some key =>
    let o := identifierOf c s d.entity key d.claims
    match o.answer with
    | .ok i => ⟨.ok i, ⟨{ d.entity with identifier := i }, o.state⟩, o.warnings⟩
    | .error r => ⟨.error r, ⟨d.entity, o.state⟩, o.warnings⟩

def append (d : Draft) (col : Column) (name : Name) (role : Role) : Outcome Draft Property :=
  .ask (Naming.freshName d.entity.names name) d fun name =>
  .ask (columnProperty c d.entity.tableId name col role false) d fun p =>
  match d.entity.add p with
  | .error r => .refused r d
  | .ok entity => .done p { d with entity }

def addVersion (d : Draft) (col : Column) : Outcome Draft (Option Property) :=
  .ask (c.propertyName d.entity.tableId col.name) d fun name =>
  (append c d col name .version).andThen fun p d =>
  (claim { d with entity := { d.entity with version := some p } } col).map fun () => some p

def searchVersion (d : Draft) : List Column → Outcome Draft (Option Property)
  | [] => .done none d
  | col :: cols =>
    let id := d.entity.tableId
    if d.claims.has col then searchVersion d cols
    else
      .ask (c.isVersionColumn id col.name) d fun isVersion =>
      if !isVersion then searchVersion d cols
      else
        .ask (do (← c.logicalType id col false).asKey) d fun type =>
        if LogicalType.countsVersions type then addVersion c d col
        else .warn (.unusableVersion col.name id type) d (searchVersion d cols)

/-- Adds the version on a column that is named, or nothing if that column is not there or not
free. -/
def addNamedVersion (d : Draft) (name : Name) : Outcome Draft (Option Property) :=
  let id := d.entity.tableId
  .ask (d.entity.table.column name) d fun
    | none => .warn (.lockColumnMissing name id) d (.done none d)
    | some col =>
      if d.claims.has col then .warn (.lockColumnClaimed name id) d (.done none d)
      else addVersion c d col

/-- A lock column that is named is taken or nothing is; else the columns are searched. -/
def addVersionOf (d : Draft) : Outcome Draft (Option Property) :=
  .ask (c.lockColumn d.entity.tableId) d fun name =>
  if name.truthy then addNamedVersion c d name
  else searchVersion c d d.entity.table.columns

def addScalar (d : Draft) (col : Column) (name : Name) : Outcome Draft Property :=
  (append c d col name .scalar).andThen fun p d => (d.claim col).map fun () => p

/-- Makes a scalar of every free column. Two of them may not have the same name from the
convention; any other name in use gives way to a number. -/
def addScalars : List Column → Named Column → Draft → Outcome Draft (List Property)
  | [], _, d => .done [] d
  | col :: cols, done, d =>
    if d.claims.has col then addScalars cols done d
    else
      .ask (c.propertyName d.entity.tableId col.name) d fun name =>
      .ask (namesake? done name) d fun
        | some other =>
          .refused (.sharedName d.entity.name d.entity.table.id other.name col.name name) d
        | none => (addScalar c d col name).andThen fun p d =>
          (addScalars cols (done ++ [(name, col)]) d).map (p :: ·)

def addScalarsOf (d : Draft) : Outcome Draft (List Property) :=
  addScalars c d.entity.table.columns [] d

end Draft
end EntityMapping
