import EntityMapping.Convention.Basic
import EntityMapping.Proofs.Derivation.DistinctNames
import EntityMapping.Proofs.Derivation.Outline
import EntityMapping.Proofs.Relational.Typed

/-! # The identifier over a primary key

However many columns a primary key has, its identifier holds them one by one in their order, and
they are what the step claims. The kinds of identifiers differ in their generator: the convention is
asked for one only when the key has a single column, and a composite identifier keeps the neutral
one.
-/
namespace EntityMapping
open Column

variable {c : Convention} {s : Settings} {id : TableId} {k : PrimaryKey} {i : Identifier}

def PrimaryKey.identifierKind (s : Settings) (k : PrimaryKey) : IdentifierKind :=
  if k.isComposite then if s.basicComposites then .basicComposite else .embedded else .simple

theorem PrimaryKey.isComposite_iff : k.isComposite ↔ ∀ col, k.columns ≠ [col] := by
  rw [isComposite, decide_eq_true_iff]
  constructor
  · intro hlength col hcol
    simp [hcol] at hlength
  · intro hne
    have hlength : k.columns.length ≠ 1 := fun h =>
      have ⟨col, hcol⟩ := List.length_eq_one_iff.1 h
      hne col hcol
    have hpos := List.length_pos_iff.2 k.columns_ne
    omega

theorem PrimaryKey.isComposite_eq_false {col : Column} (h : k.columns = [col]) :
    k.isComposite = false := by
  simp [isComposite, h]

/-- The identifier holds the columns of the key in their order, each in a property of its own. Those
of a composite key have the names that the convention gives to their columns. -/
structure Identifier.HoldsKey (c : Convention) (s : Settings) (id : TableId) (k : PrimaryKey)
    (i : Identifier) : Prop where
  kind_eq : i.kind = k.identifierKind s
  columns_eq : i.columns = k.columns
  single : ∀ p ∈ i.properties, p.inIdentifier = true ∧ ∃ col, p.columns = [col]
  named : k.isComposite → List.Forall₂
    (fun col p => c.propertyName id col.name = .ok p.name) k.columns i.properties
  distinct : (i.properties.map fun p => p.name.key).Nodup

/-- The identifier has the generator that the convention gives to the table, or the neutral one
where it gives none. -/
def Identifier.TakesGenerator (c : Convention) (id : TableId) (i : Identifier) : Prop :=
  ∃ given, c.generator id = .ok given ∧
    i.generator = if given.truthy then given else defaultGenerator

/-- The convention gives the table no generator but the neutral one. -/
def Convention.GivesNeutral (c : Convention) (id : TableId) : Prop :=
  ∃ given, c.generator id = .ok given ∧ (given.truthy → given = defaultGenerator)

/-- A composite identifier has the neutral generator, so that it takes the one of the convention
only when that is the same. A simple identifier always does. -/
structure Identifier.IsGeneratedFor (c : Convention) (id : TableId) (k : PrimaryKey)
    (i : Identifier) : Prop where
  neutral : k.isComposite → i.generator = defaultGenerator
  takes_iff : i.TakesGenerator c id ↔ (k.isComposite → c.GivesNeutral id)

theorem Identifier.takesGenerator_of_prefer
    (h : Draft.prefer (c.generator id) (.ok defaultGenerator) = .ok i.generator) :
    i.TakesGenerator c id := by
  obtain ⟨given, hgiven, h⟩ := Answer.bind_eq_ok.1 h
  refine ⟨given, hgiven, ?_⟩
  split at h
  · rename_i ht
    rw [if_pos ht]
    exact (Answer.pure_eq_ok.1 h).symm
  · rename_i ht
    rw [if_neg ht]
    exact (Except.ok.inj h).symm

/-- An identifier with the neutral generator has taken it only where no other is given. -/
theorem Identifier.takesGenerator_iff_of_neutral (h : i.generator = defaultGenerator) :
    i.TakesGenerator c id ↔ c.GivesNeutral id := by
  refine exists_congr fun given => and_congr_right fun _ => ?_
  rw [h]
  split
  · rename_i ht
    simp [ht, eq_comm]
  · rename_i ht
    simp [ht]

theorem Identifier.single_of_made {e : Entity} {cols : List Column} {ps : List Property}
    (h : List.Forall₂ (fun col p => p.IsMadeFrom c e.tableId col .scalar true) cols ps) :
    ∀ p ∈ ps, p.inIdentifier = true ∧ ∃ col, p.columns = [col] := by
  intro p hp
  obtain ⟨col, _, hm⟩ := h.exists_left hp
  exact ⟨hm.inIdentifier_eq, col, hm.columns_eq⟩

namespace Draft
variable {e : Entity} {claims t : Claims} {ws : List Warning}

theorem simpleIdentifier_holdsKey {col : Column} (hcol : k.columns = [col])
    (h : simpleIdentifier c e col claims = ⟨.ok i, t, ws⟩) :
    i.HoldsKey c s e.tableId k ∧ t.columns = claims.columns ++ k.columns ∧
      i.IsGeneratedFor c e.tableId k := by
  simp only [simpleIdentifier, Outcome.ask_eq_ok, Outcome.andThen_eq_ok, claimKey_eq_ok] at h
  obtain ⟨name, _, p, u, _, us, ⟨hp, hu, rfl⟩, ⟨generator, hgenerator, hi⟩, _⟩ := h
  obtain ⟨rfl, rfl, _⟩ := Outcome.done_eq_ok.1 hi
  have hm := (columnProperty_eq_ok.1 hp).2
  have hsimple := PrimaryKey.isComposite_eq_false hcol
  refine ⟨⟨?_, ?_, ?_, ?_, List.nodup_singleton _⟩, ?_, ⟨?_, iff_of_true ?_ ?_⟩⟩
  · simp [PrimaryKey.identifierKind, hsimple]
  · simp [Identifier.columns, hm.columns_eq, hcol]
  · exact Identifier.single_of_made (.cons hm .nil)
  · intro hcomposite
    simp [hsimple] at hcomposite
  · rw [hcol]
    exact (Claims.claim?_eq_some hu).2
  · simp [hsimple]
  · exact Identifier.takesGenerator_of_prefer hgenerator
  · simp [hsimple]

theorem compositeIdentifier_generator {ps : List Property}
    (h : compositeIdentifier c s e ps = .ok i) : i.generator = defaultGenerator := by
  unfold compositeIdentifier at h
  split at h
  · rw [← Answer.pure_eq_ok.1 h]
  · simp only [Answer.bind_eq_ok, Answer.pure_eq_ok] at h
    obtain ⟨_, _, _, _, rfl⟩ := h
    rfl

theorem compositeIdentifier_holdsKey {ps : List Property} (hk : k.isComposite)
    (hps : keyProperties c e k.columns [] claims = ⟨.ok ps, t, ws⟩)
    (h : compositeIdentifier c s e ps = .ok i) :
    i.HoldsKey c s e.tableId k ∧ t.columns = claims.columns ++ k.columns ∧
      i.IsGeneratedFor c e.tableId k := by
  obtain ⟨hall, hcolumns, _⟩ := keyProperties_eq_ok hps
  obtain ⟨hproperties, hkind⟩ := compositeIdentifier_parts h
  have hmade := hall.imp fun _ _ hp => hp.2
  have hnames := keyProperties_names_nodup hps List.nodup_nil
  have hgenerator := compositeIdentifier_generator h
  refine ⟨⟨?_, ?_, ?_, ?_, ?_⟩, hcolumns, ⟨fun _ => hgenerator, ?_⟩⟩
  · rw [hkind, PrimaryKey.identifierKind, if_pos hk]
  · rw [Identifier.columns, hproperties]
    exact hmade.flatMap_eq fun _ _ hm => hm.columns_eq
  · rw [hproperties]
    exact Identifier.single_of_made hmade
  · rw [hproperties]
    exact fun _ => hall.imp fun _ _ hp => hp.1
  · rw [hproperties]
    simpa using hnames
  · rw [Identifier.takesGenerator_iff_of_neutral hgenerator]
    simp [hk]

theorem identifierOf_holdsKey (h : identifierOf c s e k claims = ⟨.ok i, t, ws⟩) :
    i.HoldsKey c s e.tableId k ∧ t.columns = claims.columns ++ k.columns ∧
      i.IsGeneratedFor c e.tableId k := by
  unfold identifierOf at h
  split at h
  · rename_i col hcol
    exact simpleIdentifier_holdsKey hcol h
  · rename_i hne
    simp only [Outcome.andThen_eq_ok, Outcome.ask_eq_ok] at h
    obtain ⟨ps, u, _, _, hps, ⟨j, hj, hi⟩, _⟩ := h
    obtain ⟨rfl, rfl, _⟩ := Outcome.done_eq_ok.1 hi
    exact compositeIdentifier_holdsKey (PrimaryKey.isComposite_iff.2 hne) hps hj

theorem identify_holdsKey {d d' : Draft} (hk : d.entity.table.primaryKey = some k)
    (h : identify c s d = ⟨.ok i, d', ws⟩) :
    i.HoldsKey c s d.entity.tableId k ∧ d'.entity = { d.entity with identifier := i } ∧
      d'.claims.columns = d.claims.columns ++ k.columns ∧
      i.IsGeneratedFor c d.entity.tableId k := by
  obtain ⟨t, ho, rfl⟩ := identify_of_key hk h
  obtain ⟨hkey, hcolumns, hgenerated⟩ := identifierOf_holdsKey ho
  exact ⟨hkey, rfl, hcolumns, hgenerated⟩

end Draft

theorem Registry.exists_identify {schema : Schema} {r : Registry}
    (h : ofSchema c s schema = .ok r) {e : Entity} (he : e ∈ r.entities) :
    ∃ b d ws, Entity.blank c s e.table = .ok b ∧
      Draft.identify c s ⟨b, {}⟩ = ⟨.ok e.identifier, d, ws⟩ := by
  obtain ⟨x, ds, q, hfirst, _, hes⟩ := FirstPass.of_ofSchema h
  obtain ⟨d, hd, hcollects⟩ := hes.exists_left he
  obtain ⟨t, _, hmade⟩ := hfirst.made.exists_left hd
  have htable : e.table = t := hcollects.agreesAsOwner.table_eq.symm.trans
    (Entity.isCompleted_of_ofTable hmade).table_eq
  obtain ⟨o, ho, rfl⟩ := Entity.exists_outline hmade
  obtain ⟨_, rfl, _⟩ := hcollects.parts
  obtain ⟨ws, hidentified⟩ := ho.identified
  exact ⟨o.blank, _, ws, htable ▸ ho.blank_eq, hidentified⟩

/-- Whenever the step over a primary key succeeds, its identifier holds the key, and the columns of
the key are what it claims; so it is for the entities of every run. -/
theorem Registry.identifies_keys (c : Convention) (s : Settings) :
    (∀ d i d' ws k, d.entity.table.primaryKey = some k →
      Draft.identify c s d = ⟨.ok i, d', ws⟩ →
      i.HoldsKey c s d.entity.tableId k ∧ d'.entity = { d.entity with identifier := i } ∧
        d'.claims.columns = d.claims.columns ++ k.columns ∧
        i.IsGeneratedFor c d.entity.tableId k) ∧
    ∀ schema r, ofSchema c s schema = .ok r → ∀ e ∈ r.entities, ∀ k ∈ e.table.primaryKey,
      e.identifier.HoldsKey c s (s.normalize e.table.id) k ∧
        e.identifier.IsGeneratedFor c (s.normalize e.table.id) k := by
  refine ⟨fun d i d' ws k hk h => Draft.identify_holdsKey hk h, ?_⟩
  intro schema r h e he k hk
  obtain ⟨b, d, ws, hb, hidentified⟩ := exists_identify h he
  obtain ⟨htable, hid, _⟩ := Entity.blank_eq_ok hb
  have hkey : b.table.primaryKey = some k := by rw [htable]; exact hk
  obtain ⟨hholds, _, _, hgenerated⟩ := Draft.identify_holdsKey hkey hidentified
  rw [← hid]
  exact ⟨hholds, hgenerated⟩

def Convention.sequenced : Convention := { plain with generator := fun _ => .ok "sequence" }

def Table.orderLines : Table where
  id := { name := "order_lines" }
  columns := [{ name := "order" }, { name := "article" }]
  primaryKey := some {
    columns := [{ name := "order" }, { name := "article" }]
    columns_ne := by simp }
  foreignKeys := []
  comment := .null
  names_plain := by decide
  names_nodup := by decide
  key_columns := by decide
  foreign_owner := by decide
  foreign_columns := by decide

def Schema.basket : Schema where
  tables := [.customers, .orderLines]
  ids_plain := by decide
  ids_nodup := by decide
  targets_plain := by decide
  targets_known := by decide

namespace Registry

/-- The step goes through for both tables, and so does the run: the simple identifier takes the
sequence, and the composite one holds its key. -/
theorem identifies_keys_basket :
    (∀ t ∈ Schema.basket.tables, ∃ b i d ws k, Entity.blank .sequenced {} t = .ok b ∧
      t.primaryKey = some k ∧ Draft.identify .sequenced {} ⟨b, {}⟩ = ⟨.ok i, d, ws⟩ ∧
      i.HoldsKey .sequenced {} b.tableId k ∧ d.claims.columns = k.columns) ∧
    ∃ r, ofSchema .sequenced {} .basket = .ok r ∧
      r.entities.map (fun e => (e.identifier.kind, e.identifier.generator)) =
        [(.simple, .text "sequence"), (.embedded, defaultGenerator)] ∧
      ∀ e ∈ r.entities, ∀ k ∈ e.table.primaryKey,
        e.identifier.HoldsKey .sequenced {} (Settings.normalize {} e.table.id) k := by
  obtain ⟨hstep, hrun⟩ := identifies_keys .sequenced {}
  constructor
  · intro t ht
    have hidentified : Schema.basket.tables.all fun t =>
        (Entity.blank .sequenced {} t).toOption.any fun b => t.primaryKey.isSome &&
          (Draft.identify .sequenced {} ⟨b, {}⟩).answer.toOption.any fun _ => true := by decide
    obtain ⟨b, hb, hany⟩ := exists_ok_of_toOption_any (List.all_eq_true.1 hidentified t ht)
    obtain ⟨hk, hanswer⟩ := Bool.and_eq_true_iff.1 hany
    obtain ⟨k, hk⟩ := Option.isSome_iff_exists.1 hk
    obtain ⟨i, d, ws, ho, _⟩ := Outcome.exists_ok_of_answer_any hanswer
    have hkey : b.table.primaryKey = some k := by rw [(Entity.blank_eq_ok hb).1]; exact hk
    obtain ⟨hholds, _, hclaims, _⟩ := hstep _ i d ws k hkey ho
    exact ⟨b, i, d, ws, k, hb, hk, ho, hholds, hclaims⟩
  · have hresult : (ofSchema .sequenced {} .basket).toOption.any fun r =>
        r.entities.map (fun e => (e.identifier.kind, e.identifier.generator)) =
          [(.simple, .text "sequence"), (.embedded, defaultGenerator)] := by decide
    obtain ⟨r, h, hgenerators⟩ := exists_ok_of_toOption_any hresult
    exact ⟨r, h, of_decide_eq_true hgenerators, fun e he k hk => (hrun _ r h e he k hk).1⟩

/-- The composite identifier of the order lines does not take the sequence that is given to its
table. -/
theorem not_takesGenerator_orderLines : ¬ ∀ r, ofSchema .sequenced {} .basket = .ok r →
    ∀ e ∈ r.entities, ∀ _ ∈ e.table.primaryKey,
      e.identifier.TakesGenerator .sequenced (Settings.normalize {} e.table.id) := by
  have hresult : (ofSchema .sequenced {} .basket).toOption.any fun r =>
      r.entities.any fun e => e.table.primaryKey.isSome &&
        e.identifier.generator = defaultGenerator := by decide
  obtain ⟨r, h, hany⟩ := exists_ok_of_toOption_any hresult
  obtain ⟨e, he, hboth⟩ := List.any_eq_true.1 hany
  obtain ⟨hk, hgenerator⟩ := Bool.and_eq_true_iff.1 hboth
  obtain ⟨k, hk⟩ := Option.isSome_iff_exists.1 hk
  intro hall
  obtain ⟨given, hgiven, htaken⟩ := hall r h e he k hk
  obtain rfl : Document.text "sequence" = given := Except.ok.inj hgiven
  rw [of_decide_eq_true hgenerator] at htaken
  exact absurd htaken (by decide)

end Registry
end EntityMapping
