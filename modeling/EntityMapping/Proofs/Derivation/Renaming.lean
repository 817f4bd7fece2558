import EntityMapping.Proofs.Derivation.Collection
import EntityMapping.Proofs.Entity.Renamed
import EntityMapping.Proofs.Relational.Normalized

/-! # Runs that name their entities in another way

Two conventions may differ in nothing but what they call the entities, and in the classes of
composite identifiers after them. Every step under the one is then the step under the other with
the names of the entities renamed, whether it succeeds or is refused, and so is the whole run.
-/
namespace EntityMapping
open Outcome

variable {ρ : Renaming} {c c' : Convention} {s : Settings} {schema : Schema}

def TableId.IsNamed (id : TableId) : Prop := id.name.IsText

instance (id : TableId) : Decidable id.IsNamed := inferInstanceAs (Decidable id.name.IsText)

/-- The second convention renames the entities of tables with a name, and answers everything else as
the first one does. -/
structure Convention.Renames (ρ : Renaming) (c c' : Convention) : Prop where
  className : ∀ id : TableId, id.IsNamed → c'.className id = ρ <$> c.className id
  compositeName : ∀ id : TableId, id.IsNamed → c'.compositeName id = ρ <$> c.compositeName id
  referenceName : ∀ f : ForeignKey, f.target.IsNamed → c'.referenceName f = c.referenceName f
  collectionName : ∀ f : ForeignKey, f.table.IsNamed → c'.collectionName f = c.collectionName f
  propertyName : c'.propertyName = c.propertyName
  logicalType : c'.logicalType = c.logicalType
  isVersionColumn : c'.isVersionColumn = c.isVersionColumn
  columnAnnotations : c'.columnAnnotations = c.columnAnnotations
  tableAnnotations : c'.tableAnnotations = c.tableAnnotations
  lockColumn : c'.lockColumn = c.lockColumn
  identifierName : c'.identifierName = c.identifierName
  generator : c'.generator = c.generator
  skipsReference : c'.skipsReference = c.skipsReference
  skipsCollection : c'.skipsCollection = c.skipsCollection
  isInverse : c'.isInverse = c.isInverse
  isLazy : c'.isLazy = c.isLazy

section
variable (h : c.Renames ρ c')
include h

theorem entityName_renamed {id : TableId} (hid : id.IsNamed) :
    entityName c' s id = ρ <$> entityName c s id :=
  h.className (s.normalize id) hid

theorem columnProperty_renamed : columnProperty c' = columnProperty c := by
  funext id name col role inIdentifier
  rw [columnProperty, columnProperty, h.logicalType, h.columnAnnotations]

theorem treatment_renamed : treatment c' s = treatment c s := by
  funext claims f
  rw [treatment, treatment, h.skipsReference]

theorem referenceProperty_renamed (e : Entity) {f : ForeignKey} (hf : f.target.IsNamed)
    (mutable : Bool) : referenceProperty c' s (e.renamed ρ) f mutable =
      Property.renamed ρ <$> referenceProperty c s e f mutable := by
  unfold referenceProperty
  rw [h.referenceName f hf, entityName_renamed h hf, Entity.renamed_names]
  simp only [map_bind, bind_map_left]
  rfl

theorem collectionProperty_renamed (e owner : Entity) {f : ForeignKey} (hf : f.table.IsNamed) :
    collectionProperty c' (e.renamed ρ) (owner.renamed ρ) f =
      Property.renamed ρ <$> collectionProperty c e owner f := by
  unfold collectionProperty
  rw [h.collectionName f hf, h.isInverse, h.isLazy, Entity.renamed_names,
    Entity.referenceFor?_renamed, Option.map_map]
  simp only [map_bind]
  rfl

end

theorem mark_renamed (claims : Claims) (e : Entity) (col : Column) :
    claims.mark (e.renamed ρ) col = (claims.mark e col).renamed ρ id id := by
  unfold Claims.mark
  cases claims.claim? col <;> rfl

theorem Draft.claim_renamed (d : Draft) (col : Column) :
    (d.renamed ρ).claim col = (d.claim col).renamed ρ (renamed ρ) id := by
  unfold claim
  rw [renamed, mark_renamed]
  rfl

namespace Draft
variable (h : c.Renames ρ c')
include h

section
variable {e : Entity}

theorem claimKey_renamed (name : Name) (col : Column) (claims : Claims) :
    claimKey c' (e.renamed ρ) name col claims =
      (claimKey c e name col claims).renamed ρ id id := by
  unfold claimKey
  rw [columnProperty_renamed h]
  refine ask_renamed_self rfl fun p _ => ?_
  rw [mark_renamed]
  exact map_renamed _ fun _ => rfl

theorem keyProperties_renamed (cols : List Column) (done : Named Column) (claims : Claims) :
    keyProperties c' (e.renamed ρ) cols done claims =
      (keyProperties c e cols done claims).renamed ρ id id := by
  induction cols generalizing done claims with
  | nil => rfl
  | cons col cols ih =>
    unfold keyProperties
    rw [h.propertyName]
    refine ask_renamed_self rfl fun name _ => ask_renamed_self rfl fun other _ => ?_
    cases other with
    | some _ => rfl
    | none =>
      rw [claimKey_renamed h]
      refine andThen_renamed _ fun p claims _ _ => ?_
      rw [id, id, ih]
      exact map_renamed _ fun _ => rfl

theorem simpleIdentifier_renamed (col : Column) (claims : Claims) :
    simpleIdentifier c' (e.renamed ρ) col claims =
      (simpleIdentifier c e col claims).renamed ρ id (Identifier.renamed ρ) := by
  unfold simpleIdentifier
  rw [h.identifierName, h.propertyName, h.generator]
  refine ask_renamed_self rfl fun name _ => ?_
  rw [claimKey_renamed h]
  exact andThen_renamed _ fun p claims _ _ => ask_renamed_self rfl fun generator _ => rfl

theorem compositeIdentifier_renamed (he : e.tableId.IsNamed) (ps : List Property) :
    compositeIdentifier c' s (e.renamed ρ) ps =
      Identifier.renamed ρ <$> compositeIdentifier c s e ps := by
  have hclass : c'.compositeName (e.renamed ρ).tableId = ρ <$> c.compositeName e.tableId :=
    h.compositeName _ he
  unfold compositeIdentifier
  rw [h.identifierName, hclass]
  split
  · rfl
  · simp only [map_bind, bind_map_left]
    rfl

theorem identifierOf_renamed (he : e.tableId.IsNamed) (key : PrimaryKey) (claims : Claims) :
    identifierOf c' s (e.renamed ρ) key claims =
      (identifierOf c s e key claims).renamed ρ id (Identifier.renamed ρ) := by
  unfold identifierOf
  split
  · exact simpleIdentifier_renamed h _ claims
  · rw [keyProperties_renamed h]
    exact andThen_renamed _ fun ps claims _ _ =>
      ask_renamed rfl (compositeIdentifier_renamed h he ps) fun _ _ => rfl

theorem identify_renamed (he : e.tableId.IsNamed) (claims : Claims) :
    identify c' s ⟨e.renamed ρ, claims⟩ =
      (identify c s ⟨e, claims⟩).renamed ρ (Draft.renamed ρ) (Identifier.renamed ρ) := by
  unfold identify
  have hkey : (e.renamed ρ).table.primaryKey = e.table.primaryKey := rfl
  simp only [hkey]
  cases e.table.primaryKey with
  | none => exact warn_renamed rfl rfl rfl
  | some key =>
    simp only [identifierOf_renamed h he]
    rcases identifierOf c s e key claims with ⟨_ | i, claims, ws⟩ <;> rfl

end

section
variable {d : Draft}

theorem append_renamed (col : Column) (name : Name) {role : Role}
    (hrole : role.association? = none) : (d.renamed ρ).append c' col name role =
      (d.append c col name role).renamed ρ (Draft.renamed ρ) id := by
  have hnames : (d.renamed ρ).entity.names = d.entity.names := d.entity.renamed_names ρ
  unfold append
  rw [columnProperty_renamed h, hnames]
  refine ask_renamed_self rfl fun name _ => ask_renamed_self rfl fun p hp => ?_
  have hp' : p.renamed ρ = p := by
    apply Property.renamed_of_association? ρ
    rw [(columnProperty_parts hp).2.2.1, hrole]
  have hadd := d.entity.add_renamed ρ p
  rw [hp'] at hadd
  rw [renamed, hadd]
  cases d.entity.add p <;> rfl

theorem addVersion_renamed (col : Column) : (d.renamed ρ).addVersion c' col =
    (d.addVersion c col).renamed ρ (Draft.renamed ρ) id := by
  unfold addVersion
  rw [h.propertyName]
  refine ask_renamed_self rfl fun name _ => ?_
  rw [append_renamed h col name rfl]
  refine andThen_renamed _ fun p d _ _ => ?_
  have hversion : { d.renamed ρ with entity := { (d.renamed ρ).entity with version := some p } } =
      renamed ρ { d with entity := { d.entity with version := some p } } := rfl
  rw [id, hversion, claim_renamed]
  exact map_renamed _ fun _ => rfl

theorem addScalar_renamed (col : Column) (name : Name) : (d.renamed ρ).addScalar c' col name =
    (d.addScalar c col name).renamed ρ (Draft.renamed ρ) id := by
  unfold addScalar
  rw [append_renamed h col name rfl]
  refine andThen_renamed _ fun p d _ _ => ?_
  rw [claim_renamed]
  exact map_renamed _ fun _ => rfl

theorem searchVersion_renamed (cols : List Column) : (d.renamed ρ).searchVersion c' cols =
    (d.searchVersion c cols).renamed ρ (Draft.renamed ρ) id := by
  have hclaims : (d.renamed ρ).claims = d.claims := rfl
  have hid : (d.renamed ρ).entity.tableId = d.entity.tableId := rfl
  induction cols with
  | nil => rfl
  | cons col cols ih =>
    unfold searchVersion
    rw [hclaims, hid, h.isVersionColumn, h.logicalType, ih, addVersion_renamed h col]
    split
    · rfl
    · refine ask_renamed_self rfl fun isVersion _ => ?_
      split
      · rfl
      · refine ask_renamed_self rfl fun type _ => ?_
        split
        · rfl
        · exact warn_renamed rfl rfl rfl

theorem addNamedVersion_renamed (name : Name) : (d.renamed ρ).addNamedVersion c' name =
    (d.addNamedVersion c name).renamed ρ (Draft.renamed ρ) id := by
  refine ask_renamed_self rfl fun col _ => ?_
  cases col with
  | none => exact warn_renamed rfl rfl rfl
  | some col =>
    have hclaims : (d.renamed ρ).claims = d.claims := rfl
    dsimp only
    rw [hclaims]
    split
    · exact warn_renamed rfl rfl rfl
    · exact addVersion_renamed h col

theorem addVersionOf_renamed : (d.renamed ρ).addVersionOf c' =
    (d.addVersionOf c).renamed ρ (Draft.renamed ρ) id := by
  unfold addVersionOf
  rw [h.lockColumn]
  refine ask_renamed_self rfl fun name _ => ?_
  split
  · exact addNamedVersion_renamed h name
  · exact searchVersion_renamed h _

theorem addScalars_renamed (cols : List Column) (done : Named Column) (d : Draft) :
    addScalars c' cols done (d.renamed ρ) =
      (addScalars c cols done d).renamed ρ (Draft.renamed ρ) id := by
  induction cols generalizing done d with
  | nil => rfl
  | cons col cols ih =>
    have hclaims : (d.renamed ρ).claims = d.claims := rfl
    unfold addScalars
    rw [hclaims, h.propertyName]
    split
    · exact ih done d
    · refine ask_renamed_self rfl fun name _ => ask_renamed_self rfl fun other _ => ?_
      cases other with
      | some _ => rfl
      | none =>
        rw [addScalar_renamed h]
        refine andThen_renamed _ fun p d _ _ => ?_
        rw [id, ih]
        exact map_renamed _ fun _ => rfl

theorem addReference_renamed {f : ForeignKey} (hf : f.target.IsNamed) (mutable : Bool) :
    (d.renamed ρ).addReference c' s f mutable =
      (d.addReference c s f mutable).renamed ρ (Draft.renamed ρ) (Property.renamed ρ) := by
  refine ask_renamed rfl (referenceProperty_renamed h d.entity hf mutable) fun p _ => ?_
  rw [renamed, Entity.add_renamed]
  cases d.entity.add p <;> rfl

theorem addReferences_renamed {fs : List ForeignKey} (hfs : ∀ f ∈ fs, f.target.IsNamed)
    (d : Draft) : addReferences c' s schema fs (d.renamed ρ) =
      (addReferences c s schema fs d).renamed ρ (Draft.renamed ρ)
        (List.map (Property.renamed ρ)) := by
  induction fs generalizing d with
  | nil => rfl
  | cons f fs ih =>
    obtain ⟨hf, hfs⟩ := List.forall_mem_cons.1 hfs
    have hclaims : (d.renamed ρ).claims = d.claims := rfl
    unfold addReferences
    rw [treatment_renamed h, hclaims]
    split
    · refine ask_renamed_self rfl fun tr _ => ?_
      cases tr with
      | skipped => exact ih hfs d
      | claimed => exact ih hfs d
      | bound mutable =>
        dsimp only
        rw [addReference_renamed h hf]
        refine andThen_renamed _ fun p d _ _ => ?_
        rw [ih hfs]
        exact map_renamed _ fun _ => rfl
    · exact warn_renamed rfl rfl (ih hfs d)

end
end Draft

section
variable (h : c.Renames ρ c') {t : Table}
include h

theorem Entity.blank_renamed (ht : t.id.IsNamed) :
    blank c' s t = renamed ρ <$> blank c s t := by
  have hname : c'.className (s.normalize t.id) = ρ <$> c.className (s.normalize t.id) :=
    h.className _ ht
  simp only [blank, hname, h.tableAnnotations, map_bind, bind_map_left, ρ.unqualify_rename]
  rfl

theorem Draft.complete_renamed (ht : t.id.IsNamed) (hfs : ∀ f ∈ t.foreignKeys, f.target.IsNamed)
    {b : Entity} (hb : Entity.blank c s t = .ok b) : complete c' s schema ⟨b.renamed ρ, {}⟩ =
      (complete c s schema ⟨b, {}⟩).renamed ρ (renamed ρ) id := by
  have hid : b.tableId.IsNamed := by
    rw [(Entity.blank_eq_ok hb).2.1]
    exact ht
  have hversion : ((identify c' s ⟨b.renamed ρ, {}⟩).andThen fun _ d => d.addVersionOf c') =
      ((identify c s ⟨b, {}⟩).andThen fun _ d => d.addVersionOf c).renamed ρ (renamed ρ) id := by
    rw [identify_renamed h hid]
    exact andThen_renamed _ fun _ d _ _ => addVersionOf_renamed h
  have hreferences : (((identify c' s ⟨b.renamed ρ, {}⟩).andThen fun _ d =>
      d.addVersionOf c').andThen fun _ d => d.addReferencesOf c' s schema) =
      (((identify c s ⟨b, {}⟩).andThen fun _ d => d.addVersionOf c).andThen fun _ d =>
        d.addReferencesOf c s schema).renamed ρ (renamed ρ) (List.map (Property.renamed ρ)) := by
    rw [hversion]
    refine andThen_renamed _ fun v d ws hd => ?_
    obtain ⟨o, hv⟩ := isVersioned_of_eq_ok hb hd
    have hkeys : ∀ f ∈ d.entity.table.foreignKeys, f.target.IsNamed := by
      rw [hv.table_eq hb]
      exact hfs
    exact addReferences_renamed h hkeys d
  unfold complete
  rw [hreferences]
  refine andThen_renamed _ fun _ d _ _ => ?_
  rw [addScalarsOf, addScalarsOf, addScalars_renamed h]
  exact map_renamed _ fun _ => rfl

namespace Registry

theorem bind_renamed (ht : t.id.IsNamed) (hfs : ∀ f ∈ t.foreignKeys, f.target.IsNamed)
    (r : Registry) : (r.renamed ρ).bind c' s schema t =
      (r.bind c s schema t).renamed ρ (renamed ρ) (TableBinding.renamed ρ) := by
  rw [bind_eq, bind_eq]
  refine ask_renamed rfl (Entity.blank_renamed h ht) fun b hb => ?_
  dsimp only
  rw [Draft.complete_renamed h ht hfs hb]
  rcases Draft.complete c s schema ⟨b, {}⟩ with ⟨_ | _, d, ws⟩
  · rfl
  · simp only [Outcome.renamed, Renaming.result, Draft.renamed, id, enter_renamed]
    cases r.enter d.entity <;> rfl

theorem bindAll_renamed {ts : List Table}
    (hts : ∀ t ∈ ts, t.id.IsNamed ∧ ∀ f ∈ t.foreignKeys, f.target.IsNamed) (r : Registry) :
    bindAll c' s schema ts (r.renamed ρ) =
      (bindAll c s schema ts r).renamed ρ (renamed ρ) (List.map (TableBinding.renamed ρ)) := by
  induction ts generalizing r with
  | nil => rfl
  | cons t ts ih =>
    obtain ⟨⟨ht, hfs⟩, hts⟩ := List.forall_mem_cons.1 hts
    unfold bindAll
    rw [bind_renamed h ht hfs]
    refine andThen_renamed _ fun b r _ _ => ?_
    rw [ih hts]
    exact map_renamed _ fun _ => rfl

end Registry
end

section
variable (h : c.Renames ρ c') {x : ReferenceIndex}
include h

theorem foldlM_renamed {fs : List ForeignKey} (hfs : ∀ f ∈ fs, f.target.IsNamed)
    (x : ReferenceIndex) :
    fs.foldlM (fun x f => do pure (x.add (← (← entityName c' s f.target).asKey) f))
        (x.renamed ρ) =
      ReferenceIndex.renamed ρ <$> (fs.foldlM (fun x f => do
        pure (x.add (← (← entityName c s f.target).asKey) f)) x : Answer ReferenceIndex) := by
  induction fs generalizing x with
  | nil => rfl
  | cons f fs ih =>
    obtain ⟨hf, hfs⟩ := List.forall_mem_cons.1 hfs
    rw [List.foldlM_cons, List.foldlM_cons, entityName_renamed h hf]
    simp only [map_bind, bind_map_left, ρ.asKey_rename, bind_assoc, pure_bind,
      ReferenceIndex.add_renamed, ih hfs]

theorem ReferenceIndex.ofSchema_renamed (hfs : ∀ f ∈ schema.foreignKeys, f.target.IsNamed) :
    ofSchema c' s schema = renamed ρ <$> ofSchema c s schema :=
  foldlM_renamed h (fun f hf => hfs f (List.mem_of_mem_filter hf)) {}

namespace Entity

theorem addCollection_renamed (e owner : Entity) {f : ForeignKey} (hf : f.table.IsNamed) :
    addCollection c' (e.renamed ρ) (owner.renamed ρ) f =
      (addCollection c e owner f).renamed ρ (renamed ρ) (Property.renamed ρ) := by
  refine ask_renamed rfl (collectionProperty_renamed h e owner hf) fun p _ => ?_
  rw [add_renamed]
  cases e.add p <;> rfl

theorem addCollections_renamed (r : Registry) {fs : List ForeignKey}
    (hfs : ∀ f ∈ fs, f.table.IsNamed) (e : Entity) :
    addCollections c' (r.renamed ρ) fs (e.renamed ρ) =
      (addCollections c r fs e).renamed ρ (renamed ρ) (List.map (Property.renamed ρ)) := by
  induction fs generalizing e with
  | nil => rfl
  | cons f fs ih =>
    obtain ⟨hf, hfs⟩ := List.forall_mem_cons.1 hfs
    unfold addCollections
    rw [h.skipsCollection, Registry.ofTable?_renamed]
    refine ask_renamed_self rfl fun isSkipped _ => ?_
    split
    · exact ih hfs e
    · cases r.ofTable? f.table with
      | none => exact warn_renamed rfl rfl (ih hfs e)
      | some owner =>
        dsimp only [Option.map_some]
        rw [addCollection_renamed h e owner hf]
        refine andThen_renamed _ fun p e _ _ => ?_
        rw [ih hfs]
        exact map_renamed _ fun _ => rfl

theorem collect_renamed (hx : ∀ n, ∀ f ∈ x.leadingTo n, f.table.IsNamed) (r : Registry)
    (e : Entity) : (e.renamed ρ).collect c' (x.renamed ρ) (r.renamed ρ) =
      (e.collect c x r).renamed ρ (renamed ρ) (List.map (Property.renamed ρ)) := by
  refine ask_renamed rfl (ρ.asKey_rename e.name) fun name _ => ?_
  have hadd := addCollections_renamed h r (hx name) e
  rw [ReferenceIndex.leadingTo_renamed, renamed_hasIdentifier]
  cases hfs : x.leadingTo name with
  | nil => rfl
  | cons f fs =>
    dsimp only
    split
    · rw [← hfs]
      exact hadd
    · rfl

end Entity

namespace Registry

theorem addCollectionsOf_renamed (hx : ∀ n, ∀ f ∈ x.leadingTo n, f.table.IsNamed) (e : Entity)
    (r : Registry) : (r.renamed ρ).addCollectionsOf c' (x.renamed ρ) (e.renamed ρ) =
      (r.addCollectionsOf c x e).renamed ρ (renamed ρ) (List.map (Property.renamed ρ)) := by
  unfold addCollectionsOf
  rw [Entity.collect_renamed h hx]
  rcases e.collect c x r with ⟨refusal | ps, e', ws⟩
  · cases refusal with
    | noIdentifier name table => exact warn_renamed rfl rfl rfl
    | _ => simp [Outcome.renamed, Renaming.result, Refusal.renamed, update_renamed]
  · simp only [Outcome.renamed, Renaming.result, update_renamed]

theorem collect_renamed (hx : ∀ n, ∀ f ∈ x.leadingTo n, f.table.IsNamed) (b : TableBinding)
    (r : Registry) : (r.renamed ρ).collect c' (x.renamed ρ) (b.renamed ρ) =
      (r.collect c x b).renamed ρ (renamed ρ)
        (Prod.map (List.map (Property.renamed ρ)) (TableBinding.renamed ρ)) := by
  have hget : ((b.renamed ρ).entity.bind (r.renamed ρ).get?) =
      (b.entity.bind r.get?).map (Entity.renamed ρ) := by
    rw [TableBinding.renamed, Option.bind_map, Option.map_bind]
    exact Option.bind_congr fun n _ => r.get?_renamed ρ n
  have hstage : (b.renamed ρ).stage = b.stage := rfl
  rw [collect_eq, collect_eq, hget, hstage]
  split
  · rfl
  · cases b.entity.bind r.get? with
    | none => rfl
    | some e =>
      dsimp only [Option.map_some]
      rw [addCollectionsOf_renamed h hx]
      exact map_renamed _ fun _ => rfl

theorem collectAll_renamed (hx : ∀ n, ∀ f ∈ x.leadingTo n, f.table.IsNamed)
    (bs : List TableBinding) (r : Registry) :
    collectAll c' (x.renamed ρ) (bs.map (TableBinding.renamed ρ)) (r.renamed ρ) =
      (collectAll c x bs r).renamed ρ (renamed ρ) (List.map (TableBinding.renamed ρ)) := by
  induction bs generalizing r with
  | nil => rfl
  | cons b bs ih =>
    rw [List.map_cons, collectAll, collectAll, collect_renamed h hx]
    refine andThen_renamed _ fun a r _ _ => ?_
    rw [ih]
    exact map_renamed _ fun _ => rfl

/-- A run under the one convention is the run under the other with its entities renamed: what it
leaves behind, what it answers or why it is refused, and its warnings. -/
theorem derive_renamed (hs : ∀ id ∈ schema.ids, id.IsNamed) : derive c' s schema =
    (derive c s schema).renamed ρ (renamed ρ) (List.map (TableBinding.renamed ρ)) := by
  have howners : ∀ f ∈ schema.foreignKeys, f.table.IsNamed := fun f hf =>
    hs _ (Schema.owner_mem_ids hf)
  have htargets : ∀ f ∈ schema.foreignKeys, f.target.IsNamed := fun f hf =>
    hs _ (Schema.target_mem_ids hf)
  have htables : ∀ t ∈ schema.tables, t.id.IsNamed ∧ ∀ f ∈ t.foreignKeys, f.target.IsNamed :=
    fun t ht => ⟨hs _ (Schema.id_mem_ids ht), fun f hf =>
      htargets f (Schema.mem_foreignKeys_iff.2 ⟨t, ht, hf⟩)⟩
  refine ask_renamed rfl (ReferenceIndex.ofSchema_renamed h htargets) fun x hx => ?_
  have hindex : ∀ n, ∀ f ∈ x.leadingTo n, f.table.IsNamed := fun n f hf =>
    howners f (mem_foreignKeys_of_leadingTo hx hf)
  have hempty : ({} : Registry) = Registry.renamed ρ {} := rfl
  rw [hempty, bindAll_renamed h htables]
  exact andThen_renamed _ fun bs r _ _ => collectAll_renamed h hindex bs r

theorem ofSchema_renamed (hs : ∀ id ∈ schema.ids, id.IsNamed) :
    ofSchema c' s schema = ρ.result (renamed ρ) (ofSchema c s schema) := by
  unfold ofSchema
  rw [derive_renamed h hs]
  rcases derive c s schema with ⟨_ | _, r, ws⟩ <;> rfl

end Registry
end
end EntityMapping
