import EntityMapping.Derivation.Run
import EntityMapping.Proofs.Document
import Mathlib.Data.List.Find

/-! # Entities under other names

Entities can be given other names all over: in the registry with its imports, where an association
leads to one of them, and where a refusal or a warning tells of one. What is looked up under a name
is then found under the new name.
-/
namespace EntityMapping

/-- New names for entities, alike where the old ones are and different where they are not. The
simple name, after the last dot, stays. -/
structure Renaming where
  rename : Name → Name
  same_rename : ∀ m n, (rename m).same (rename n) = m.same n
  isPlain_rename : ∀ n, (rename n).isPlain = n.isPlain
  unqualify_rename : ∀ n, Naming.unqualifyName (rename n) = Naming.unqualifyName n

instance : CoeFun Renaming fun _ => Name → Name := ⟨Renaming.rename⟩

variable (ρ : Renaming)

theorem Renaming.asKey_rename (n : Name) : (ρ n).asKey = ρ <$> n.asKey := by
  unfold Document.asKey
  rw [ρ.isPlain_rename]
  split <;> rfl

def Association.renamed (a : Association) : Association := { a with target := ρ a.target }

def Role.renamed : Role → Role
  | .reference a => .reference (a.renamed ρ)
  | .collection a o => .collection (a.renamed ρ) o
  | role => role

/-- An association leads to another name, which is also its type. -/
def Property.renamed (p : Property) : Property :=
  { p with
    role := p.role.renamed ρ
    type := if p.isAssociation then ρ p.type else p.type }

/-- An embedded identifier has a class of its own, named after the entity. -/
def Identifier.renamed (i : Identifier) : Identifier :=
  { i with className := if i.kind = .embedded then ρ i.className else i.className }

def Entity.renamed (e : Entity) : Entity :=
  { e with
    name := ρ e.name
    discriminator := ρ e.discriminator
    identifier := e.identifier.renamed ρ
    properties := e.properties.map (Property.renamed ρ) }

def Draft.renamed (d : Draft) : Draft := { d with entity := d.entity.renamed ρ }

def Registry.renamed (r : Registry) : Registry where
  entities := r.entities.map (Entity.renamed ρ)
  byTable := r.byTable.map fun e => (e.1, ρ e.2)
  imports := r.imports.map fun e => (ρ e.1, ρ e.2)

def ReferenceIndex.renamed (x : ReferenceIndex) : ReferenceIndex :=
  ⟨x.entries.map fun e => (ρ e.1, e.2)⟩

def TableBinding.renamed (b : TableBinding) : TableBinding := { b with entity := b.entity.map ρ }

def Refusal.renamed : Refusal → Refusal
  | .duplicateName entity table existing => .duplicateName (ρ entity) table existing
  | .claimedTwice entity table column => .claimedTwice (ρ entity) table column
  | .sharedName entity table first second property =>
    .sharedName (ρ entity) table first second property
  | .noIdentifier entity table => .noIdentifier (ρ entity) table
  | .sealedEntity entity kind property => .sealedEntity (ρ entity) kind property
  | .nameInUse entity property => .nameInUse (ρ entity) property
  | refusal => refusal

def Warning.renamed : Warning → Warning
  | .noPrimaryKey table entity => .noPrimaryKey table (ρ entity)
  | .collectionsSkipped entity table => .collectionsSkipped (ρ entity) table
  | warning => warning

/-- The entity's name takes no part in whether a warning can be told. -/
theorem Warning.message_renamed (w : Warning) :
    (fun _ => ()) <$> (w.renamed ρ).message = (fun _ => ()) <$> w.message := by
  cases w with
  | noPrimaryKey table entity =>
    simp only [renamed, message]
    cases table.text <;> rfl
  | collectionsSkipped entity table =>
    simp only [renamed, message, Refusal.message]
    cases table.text <;> rfl
  | _ => rfl

section
variable {σ τ α α' β β' : Type}

def Renaming.result (g : α → β) : Except Refusal α → Except Refusal β
  | .ok a => .ok (g a)
  | .error refusal => .error (refusal.renamed ρ)

def Outcome.renamed (f : σ → τ) (g : α → β) (o : Outcome σ α) : Outcome τ β :=
  ⟨ρ.result g o.answer, f o.state, o.warnings.map (Warning.renamed ρ)⟩

namespace Outcome
variable {ρ} {f : σ → τ} {s : σ}

@[simp] theorem done_renamed (g : α → β) (a : α) :
    (done a s).renamed ρ f g = done (g a) (f s) := rfl

@[simp] theorem refused_renamed (g : α → β) (r : Refusal) :
    (refused r s).renamed ρ f g = refused (r.renamed ρ) (f s) := rfl

theorem after_renamed (g : α → β) (ws : List Warning) (o : Outcome σ α) :
    (o.after ws).renamed ρ f g = (o.renamed ρ f g).after (ws.map (Warning.renamed ρ)) := by
  simp [after, renamed]

theorem map_renamed {g : α → β} {g' : α' → β'} {k : α → α'} {k' : β → β'} (o : Outcome σ α)
    (h : ∀ a, k' (g a) = g' (k a)) : (o.renamed ρ f g).map k' = (o.map k).renamed ρ f g' := by
  rcases o with ⟨_ | a, _, _⟩
  · rfl
  · simp [map, renamed, Renaming.result, Except.map, h]

theorem andThen_renamed {g : α → β} {g' : α' → β'} {next : α → σ → Outcome σ α'}
    {next' : β → τ → Outcome τ β'} (o : Outcome σ α)
    (h : ∀ a t ws, o = ⟨.ok a, t, ws⟩ → next' (g a) (f t) = (next a t).renamed ρ f g') :
    (o.renamed ρ f g).andThen next' = (o.andThen next).renamed ρ f g' := by
  rcases o with ⟨_ | a, t, ws⟩
  · rfl
  · have hn : (renamed ρ f g ⟨.ok a, t, ws⟩).andThen next' =
        (next' (g a) (f t)).after (ws.map (Warning.renamed ρ)) := rfl
    have hm : andThen ⟨.ok a, t, ws⟩ next = (next a t).after ws := rfl
    rw [hn, hm, h a t ws rfl, after_renamed]

theorem ask_renamed {t : τ} {g : α → β} {k : α' → β'} {x : Answer α'} {x' : Answer β'}
    {next : α' → Outcome σ α} {next' : β' → Outcome τ β} (ht : t = f s) (hx : x' = k <$> x)
    (h : ∀ a, x = .ok a → next' (k a) = (next a).renamed ρ f g) :
    ask x' t next' = (ask x s next).renamed ρ f g := by
  subst hx ht
  cases x with
  | error _ => rfl
  | ok a => exact h a rfl

theorem ask_renamed_self {t : τ} {g : α → β} {x : Answer α'} {next : α' → Outcome σ α}
    {next' : α' → Outcome τ β} (ht : t = f s)
    (h : ∀ a, x = .ok a → next' a = (next a).renamed ρ f g) :
    ask x t next' = (ask x s next).renamed ρ f g :=
  ask_renamed ht (id_map x).symm h

theorem warn_renamed {t : τ} {g : α → β} {w w' : Warning} {o : Outcome σ α} {o' : Outcome τ β}
    (ht : t = f s) (hw : w' = w.renamed ρ) (h : o' = o.renamed ρ f g) :
    warn w' t o' = (warn w s o).renamed ρ f g := by
  subst hw ht
  have hmessage := w.message_renamed ρ
  unfold warn
  cases hm : w.message with
  | error fault =>
    rw [hm] at hmessage
    cases hm' : (w.renamed ρ).message with
    | error fault' =>
      rw [hm'] at hmessage
      cases hmessage
      rfl
    | ok m => simp [hm', Functor.map, Except.map] at hmessage
  | ok m =>
    rw [hm] at hmessage
    cases hm' : (w.renamed ρ).message with
    | error fault => simp [hm', Functor.map, Except.map] at hmessage
    | ok m' => rw [ask_ok, ask_ok, h, after_renamed, List.map_singleton]

end Outcome
end

namespace Property
@[simp] theorem renamed_name (p : Property) : (p.renamed ρ).name = p.name := rfl

@[simp] theorem renamed_kind (p : Property) : (p.renamed ρ).kind = p.kind := by
  rcases p with ⟨_, _ | _ | _ | _, _, _, _, _, _, _⟩ <;> rfl

@[simp] theorem renamed_foreignKey? (p : Property) : (p.renamed ρ).foreignKey? = p.foreignKey? := by
  rcases p with ⟨_, _ | _ | _ | _, _, _, _, _, _, _⟩ <;> rfl

/-- Only an association knows of an entity. -/
theorem renamed_of_association? {p : Property} (h : p.role.association? = none) :
    p.renamed ρ = p := by
  rcases p with ⟨_, _ | _ | a | ⟨a, o⟩, _, _, _, _, _, _⟩
  · rfl
  · rfl
  · cases h
  · cases h

end Property

namespace Entity
@[simp] theorem renamed_names (e : Entity) : (e.renamed ρ).names = e.names := by
  simp only [names, hasIdentifier, renamed, List.map_map]
  rfl

@[simp] theorem renamed_hasIdentifier (e : Entity) :
    (e.renamed ρ).hasIdentifier = e.hasIdentifier := rfl

theorem add_renamed (e : Entity) (p : Property) :
    (e.renamed ρ).add (p.renamed ρ) = ρ.result (renamed ρ) (e.add p) := by
  unfold add
  rw [Property.renamed_kind, renamed_names, Property.renamed_name]
  have hsealed : (e.renamed ρ).isSealed = e.isSealed := rfl
  rw [hsealed]
  split
  · rfl
  · split
    · rfl
    · simp [Renaming.result, renamed]

theorem renamed_references (e : Entity) :
    (e.renamed ρ).references = e.references.map (Property.renamed ρ) := by
  simp only [references, ofKinds, renamed, List.filter_map]
  congr 1
  exact List.filter_congr fun p _ => by rw [Function.comp, Property.renamed_kind]

theorem referenceFor?_renamed (e : Entity) (f : ForeignKey) :
    (e.renamed ρ).referenceFor? f = (e.referenceFor? f).map (Property.renamed ρ) := by
  rw [referenceFor?, referenceFor?, renamed_references, List.find?_map]
  congr 1
  exact List.find?_congr fun p _ => by rw [Function.comp, Property.renamed_foreignKey?]

end Entity

namespace Named
variable {α β : Type}

theorem get?_renamed (g : α → β) (es : Named α) (n : Name) :
    get? (es.map fun e => (ρ e.1, g e.2)) (ρ n) = (get? es n).map g := by
  induction es with
  | nil => rfl
  | cons e es ih =>
    rw [List.map_cons, get?_cons, get?_cons, ρ.same_rename, ih]
    split <;> rfl

theorem set_renamed (g : α → β) (es : Named α) (n : Name) (a : α) :
    set (ρ n) (g a) (es.map fun e => (ρ e.1, g e.2)) =
      (set n a es).map fun e => (ρ e.1, g e.2) := by
  induction es with
  | nil => rfl
  | cons e es ih =>
    rw [List.map_cons, set, set, ρ.same_rename, ih]
    split <;> rfl

end Named

namespace Entries
variable {κ α β : Type} [DecidableEq κ]

theorem get?_map_snd (g : α → β) (es : Entries κ α) (k : κ) :
    get? (es.map fun e => (e.1, g e.2)) k = (get? es k).map g := by
  induction es with
  | nil => rfl
  | cons e es ih =>
    rw [List.map_cons, get?_cons, get?_cons, ih]
    split <;> rfl

theorem set_map_snd (g : α → β) (es : Entries κ α) (k : κ) (a : α) :
    set k (g a) (es.map fun e => (e.1, g e.2)) = (set k a es).map fun e => (e.1, g e.2) := by
  induction es with
  | nil => rfl
  | cons e es ih =>
    rw [List.map_cons, set, set, ih]
    split <;> rfl

end Entries

namespace Registry
theorem get?_renamed (r : Registry) (n : Name) :
    (r.renamed ρ).get? (ρ n) = (r.get? n).map (Entity.renamed ρ) := by
  simp only [get?, renamed, List.find?_map]
  congr 1
  exact List.find?_congr fun e _ => ρ.same_rename e.name n

theorem ofTable?_renamed (r : Registry) (id : TableId) :
    (r.renamed ρ).ofTable? id = (r.ofTable? id).map (Entity.renamed ρ) := by
  have hname : (r.renamed ρ).byTable.get? id.key = (r.byTable.get? id.key).map ρ :=
    Entries.get?_map_snd ρ r.byTable id.key
  rw [ofTable?, ofTable?, hname, Option.bind_map, Option.map_bind]
  exact Option.bind_congr fun n _ => r.get?_renamed ρ n

theorem update_renamed (r : Registry) (e : Entity) :
    (r.renamed ρ).update (e.renamed ρ) = (r.update e).renamed ρ := by
  simp only [update, renamed, List.map_map]
  congr 1
  refine List.map_congr_left fun d _ => ?_
  have hsame : (d.renamed ρ).name.same (e.renamed ρ).name = d.name.same e.name :=
    ρ.same_rename d.name e.name
  rw [Function.comp, Function.comp, hsame]
  split <;> rfl

theorem enter_renamed (r : Registry) (e : Entity) :
    (r.renamed ρ).enter (e.renamed ρ) = ρ.result (renamed ρ) (r.enter e) := by
  have hget : (r.renamed ρ).get? (e.renamed ρ).freeze.name =
      (r.get? e.freeze.name).map (Entity.renamed ρ) := r.get?_renamed ρ e.name
  unfold enter register
  rw [hget]
  cases r.get? e.freeze.name with
  | some existing => rfl
  | none =>
    have htable := Entries.set_map_snd ρ r.byTable e.table.id.key e.name
    have himports := Named.set_renamed ρ ρ r.imports e.name e.name
    simp only [Option.map_none, addImport, Renaming.result, Except.ok.injEq, renamed, mk.injEq,
      List.map_append]
    exact ⟨rfl, htable, himports⟩

end Registry

namespace ReferenceIndex
theorem leadingTo_renamed (x : ReferenceIndex) (n : Name) :
    (x.renamed ρ).leadingTo (ρ n) = x.leadingTo n := by
  have h := Named.get?_renamed ρ id x.entries n
  rw [Option.map_id] at h
  exact congrArg (Option.getD · []) h

theorem add_renamed (x : ReferenceIndex) (n : Name) (f : ForeignKey) :
    (x.renamed ρ).add (ρ n) f = (x.add n f).renamed ρ := by
  rw [add, add, leadingTo_renamed]
  exact congrArg mk (Named.set_renamed ρ id x.entries n _)

end ReferenceIndex
end EntityMapping
