import EntityMapping.Derivation.ColumnProperty
import EntityMapping.Proofs.Document
import EntityMapping.Proofs.Entity.Naming
import EntityMapping.Proofs.Outcome
import EntityMapping.Proofs.Relational.Table

/-! # What the steps over columns leave behind

The identifier, the version and the scalars each hold single columns that were free before. Every
step over a list is opened once for its first column; what the whole list leaves behind follows by
induction on the list.
-/
namespace EntityMapping
open Column

namespace Entity
variable (e : Entity) (ps qs : List Property)

def extend : Entity := { e with properties := e.properties ++ ps }

@[simp] theorem extend_nil : e.extend [] = e := by simp [extend]
@[simp] theorem extend_extend : (e.extend ps).extend qs = e.extend (ps ++ qs) := by simp [extend]
@[simp] theorem extend_name : (e.extend ps).name = e.name := rfl
@[simp] theorem extend_table : (e.extend ps).table = e.table := rfl
@[simp] theorem extend_tableId : (e.extend ps).tableId = e.tableId := rfl
@[simp] theorem extend_identifier : (e.extend ps).identifier = e.identifier := rfl
@[simp] theorem extend_isSealed : (e.extend ps).isSealed = e.isSealed := rfl
@[simp] theorem extend_properties : (e.extend ps).properties = e.properties ++ ps := rfl

theorem names_extend : (e.extend ps).names = e.names ++ ps.map Property.name := by
  unfold names
  rw [extend_properties, List.map_append, ← List.append_assoc]
  rfl

variable {e}

theorem HasPlainNames.extend (he : e.HasPlainNames) {p : Property} (hp : p.name.isPlain) :
    (e.extend [p]).HasPlainNames := by
  intro n hn
  rw [names_extend, List.map_singleton, List.mem_append, List.mem_singleton] at hn
  rcases hn with hn | rfl
  · exact he n hn
  · exact hp

theorem add_eq_ok {e' : Entity} {p : Property} :
    e.add p = .ok e' ↔ (e.isSealed = true → p.kind = .collection) ∧
      Naming.isTaken e.names p.name = false ∧ e' = e.extend [p] := by
  unfold add
  split
  · simp_all
  · split
    · simp_all
    · rename_i hs hn
      simp only [Except.ok.injEq, extend]
      simp only [Bool.and_eq_true, decide_eq_true_eq, not_and, not_not] at hs
      exact ⟨fun h => ⟨hs, by simpa using hn, h.symm⟩, fun h => h.2.2.symm⟩

end Entity

variable {c : Convention}

/-- The property is the one that the convention gives to the column under the name it has. -/
def Property.IsMadeFrom (c : Convention) (id : TableId) (col : Column) (role : Role)
    (inIdentifier : Bool) (p : Property) : Prop :=
  columnProperty c id p.name col role inIdentifier = .ok p

section
variable {id : TableId} {name : Name} {col : Column} {role : Role} {b : Bool} {p : Property}

theorem columnProperty_parts (h : columnProperty c id name col role b = .ok p) :
    p.name = name ∧ p.columns = [col] ∧ p.role = role ∧ c.logicalType id col b = .ok p.type := by
  simp only [columnProperty, Answer.bind_eq_ok, Answer.pure_eq_ok] at h
  obtain ⟨t, ht, _, _, _, _, rfl⟩ := h
  exact ⟨rfl, rfl, rfl, ht⟩

theorem columnProperty_eq_ok : columnProperty c id name col role b = .ok p ↔
    p.name = name ∧ p.IsMadeFrom c id col role b := by
  constructor
  · intro h
    have hn := (columnProperty_parts h).1
    exact ⟨hn, by rwa [Property.IsMadeFrom, hn]⟩
  · rintro ⟨rfl, h⟩
    exact h

theorem Property.IsMadeFrom.columns_eq (h : p.IsMadeFrom c id col role b) : p.columns = [col] :=
  (columnProperty_parts h).2.1

theorem Property.IsMadeFrom.named (h : p.IsMadeFrom c id col role b) (n : Name) :
    (p.named n).IsMadeFrom c id col role b := by
  simp only [IsMadeFrom, columnProperty, Answer.bind_eq_ok, Answer.pure_eq_ok] at h ⊢
  obtain ⟨t, ht, ds, hds, as, has, he⟩ := h
  exact ⟨t, ht, ds, hds, as, has, congrArg (fun q => q.named n) he⟩

theorem Property.IsMadeFrom.logicalType_eq (h : p.IsMadeFrom c id col role b) :
    c.logicalType id col b = .ok p.type :=
  (columnProperty_parts h).2.2.2

theorem columnProperty_inIdentifier (h : columnProperty c id name col role b = .ok p) :
    p.inIdentifier = b := by
  simp only [columnProperty, Answer.bind_eq_ok, Answer.pure_eq_ok] at h
  obtain ⟨_, _, _, _, _, _, rfl⟩ := h
  rfl

theorem Property.IsMadeFrom.inIdentifier_eq (h : p.IsMadeFrom c id col role b) :
    p.inIdentifier = b :=
  columnProperty_inIdentifier h

theorem Property.IsMadeFrom.kind_eq (h : p.IsMadeFrom c id col role b) : p.kind = role.kind :=
  congrArg Role.kind (columnProperty_parts h).2.2.1

def Property.IsSketchOf (c : Convention) (id : TableId) (role : Role) (col : Column)
    (q : Property) : Prop :=
  c.propertyName id col.name = .ok q.name ∧ q.IsMadeFrom c id col role false

/-- Properties that are named in their order are still made from their columns. -/
theorem forall₂_isMadeFrom {cols : List Column} {qs : List Property} (taken : List Name)
    (h : List.Forall₂ (Property.IsSketchOf c id role) cols qs) :
    List.Forall₂ (fun col p => p.IsMadeFrom c id col role false) cols
      (Property.nameInOrder taken qs) := by
  refine h.trans Property.nameInOrder_isNamedFrom ?_
  rintro col q p ⟨_, hq⟩ ⟨hp, _⟩
  rw [hp]
  exact hq.named _

end

theorem namesake?_eq_ok {done : Named Column} {name : Name} {o : Option Column} :
    namesake? done name = .ok o ↔ name.isPlain ∧ o = done.get? name := by
  simp only [namesake?, Answer.bind_eq_ok, Document.asKey_eq_ok, Answer.pure_eq_ok]
  constructor
  · rintro ⟨_, ⟨hp, rfl⟩, h⟩
    exact ⟨hp, h.symm⟩
  · rintro ⟨hp, rfl⟩
    exact ⟨name, ⟨hp, rfl⟩, rfl⟩

theorem Table.column_eq_ok {t : Table} {name : Name} {o : Option Column}
    (h : t.column name = .ok o) : o = t.column? name := by
  simp only [column, Answer.bind_eq_ok, Document.asKey_eq_ok, Answer.pure_eq_ok] at h
  obtain ⟨_, ⟨_, rfl⟩, h⟩ := h
  exact h.symm

namespace Draft

theorem mark_eq_ok {e : Entity} {col : Column} {claims t : Claims} {u : Unit}
    {ws : List Warning} :
    claims.mark e col = ⟨.ok u, t, ws⟩ ↔ claims.claim? col = some t ∧ ws = [] := by
  unfold Claims.mark
  split <;> simp_all

theorem claimKey_eq_ok {e : Entity} {name : Name} {col : Column} {claims t : Claims} {p : Property}
    {ws : List Warning} : claimKey c e name col claims = ⟨.ok p, t, ws⟩ ↔
      columnProperty c e.tableId name col .scalar true = .ok p ∧ claims.claim? col = some t ∧
        ws = [] := by
  simp only [claimKey, Outcome.ask_eq_ok, Outcome.map_eq_ok, mark_eq_ok]
  constructor
  · rintro ⟨p, hp, _, hmark, rfl⟩
    exact ⟨hp, hmark⟩
  · rintro ⟨hp, hmark⟩
    exact ⟨p, hp, (), hmark, rfl⟩

theorem keyProperties_cons_eq_ok {e : Entity} {col : Column} {cols : List Column}
    {done : Named Column} {claims t : Claims} {ps : List Property} {ws : List Warning} :
    keyProperties c e (col :: cols) done claims = ⟨.ok ps, t, ws⟩ ↔
      ∃ p s qs, c.propertyName e.tableId col.name = .ok p.name ∧ p.name.isPlain ∧
        done.get? p.name = none ∧ p.IsMadeFrom c e.tableId col .scalar true ∧
        claims.claim? col = some s ∧
        keyProperties c e cols (done ++ [(p.name, col)]) s = ⟨.ok qs, t, ws⟩ ∧ ps = p :: qs := by
  simp only [keyProperties, Outcome.ask_eq_ok, namesake?_eq_ok]
  constructor
  · rintro ⟨name, hname, o, ⟨hplain, rfl⟩, h⟩
    cases hd : done.get? name with
    | some d => simp [hd] at h
    | none =>
      simp only [hd, Outcome.andThen_eq_ok, Outcome.map_eq_ok, claimKey_eq_ok] at h
      obtain ⟨p, s, _, us, ⟨hp, hs, rfl⟩, ⟨qs, hq, rfl⟩, rfl⟩ := h
      obtain ⟨rfl, hm⟩ := columnProperty_eq_ok.1 hp
      exact ⟨p, s, qs, hname, hplain, hd, hm, hs, by simpa using hq, rfl⟩
  · rintro ⟨p, s, qs, hname, hplain, hd, hm, hs, hq, rfl⟩
    refine ⟨p.name, hname, none, ⟨hplain, hd.symm⟩, ?_⟩
    simp only [Outcome.andThen_eq_ok, Outcome.map_eq_ok, claimKey_eq_ok]
    exact ⟨p, s, [], ws, ⟨hm, hs, rfl⟩, ⟨qs, hq, rfl⟩, rfl⟩

/-- The key properties hold the key columns one by one, and all of them were free. -/
theorem keyProperties_eq_ok {e : Entity} {cols : List Column} {done : Named Column}
    {claims t : Claims} {ps : List Property} {ws : List Warning}
    (h : keyProperties c e cols done claims = ⟨.ok ps, t, ws⟩) :
    List.Forall₂ (fun col p => c.propertyName e.tableId col.name = .ok p.name ∧
        p.IsMadeFrom c e.tableId col .scalar true) cols ps ∧
      t.columns = claims.columns ++ cols ∧
      ((nameKeys claims.columns).Nodup → (nameKeys t.columns).Nodup) := by
  induction cols generalizing done claims ps with
  | nil =>
    obtain ⟨rfl, rfl, rfl⟩ := Outcome.done_eq_ok.1 h
    exact ⟨.nil, by simp, id⟩
  | cons col cols ih =>
    obtain ⟨p, s, qs, hname, _, _, hm, hs, hq, rfl⟩ := keyProperties_cons_eq_ok.1 h
    obtain ⟨hfree, hcols⟩ := Claims.claim?_eq_some hs
    obtain ⟨hall, ht, hnd⟩ := ih hq
    refine ⟨.cons ⟨hname, hm⟩ hall, by simp [ht, hcols], ?_⟩
    intro hn
    apply hnd
    rw [hcols, nameKeys_append]
    exact hn.append (by simp) (by simpa using hfree)

/-- An identifier with its columns in the order of the key, each held by a property of its own. -/
structure Identifies (c : Convention) (e : Entity) (claims : Claims) (i : Identifier) : Prop where
  kind_iff : i.kind = .none ↔ e.table.primaryKey = none
  made : List.Forall₂ (fun col p => p.IsMadeFrom c e.tableId col .scalar true)
    e.table.keyColumns i.properties
  claimed : claims.columns = e.table.keyColumns
  nodup : (nameKeys claims.columns).Nodup

theorem compositeIdentifier_parts {s : Settings} {e : Entity} {ps : List Property}
    {i : Identifier} (h : compositeIdentifier c s e ps = .ok i) :
    i.properties = ps ∧ i.kind = if s.basicComposites then .basicComposite else .embedded := by
  unfold compositeIdentifier at h
  split at h
  · rename_i hs
    rw [Answer.pure_eq_ok] at h
    rw [← h, if_pos hs]
    exact ⟨rfl, rfl⟩
  · rename_i hs
    simp only [Answer.bind_eq_ok, Answer.pure_eq_ok] at h
    obtain ⟨_, _, _, _, rfl⟩ := h
    rw [if_neg hs]
    exact ⟨rfl, rfl⟩

theorem identifierOf_eq_ok {s : Settings} {e : Entity} {k : PrimaryKey} {i : Identifier}
    {t : Claims} {ws : List Warning} (h : identifierOf c s e k {} = ⟨.ok i, t, ws⟩)
    (hk : e.table.primaryKey = some k) : Identifies c e t i := by
  have hkey : e.table.keyColumns = k.columns := by simp [Table.keyColumns, hk]
  have hkind : i.kind ≠ .none → (i.kind = .none ↔ e.table.primaryKey = none) := fun hi =>
    iff_of_false hi (by simp [hk])
  unfold identifierOf at h
  split at h
  · rename_i col hcol
    simp only [simpleIdentifier, Outcome.ask_eq_ok, Outcome.andThen_eq_ok, claimKey_eq_ok] at h
    obtain ⟨name, _, p, u, _, us, ⟨hp, hu, rfl⟩, ⟨_, _, hi⟩, _⟩ := h
    obtain ⟨rfl, rfl, _⟩ := Outcome.done_eq_ok.1 hi
    have hc : u.columns = [col] := by simpa using (Claims.claim?_eq_some hu).2
    refine ⟨hkind (by simp), ?_, by rw [hkey, hcol, hc], by simp [hc]⟩
    rw [hkey, hcol]
    exact .cons (columnProperty_eq_ok.1 hp).2 .nil
  · simp only [Outcome.andThen_eq_ok, Outcome.ask_eq_ok] at h
    obtain ⟨ps, u, _, _, hps, ⟨j, hj, hi⟩, _⟩ := h
    obtain ⟨rfl, rfl, _⟩ := Outcome.done_eq_ok.1 hi
    obtain ⟨hall, hcols, hnd⟩ := keyProperties_eq_ok hps
    obtain ⟨hproperties, hcomposite⟩ := compositeIdentifier_parts hj
    refine ⟨hkind ?_, ?_, by simpa [hkey] using hcols, hnd (by simp)⟩
    · rw [hcomposite]
      split <;> simp
    rw [hkey, hproperties]
    exact hall.imp fun _ _ hp => hp.2

theorem identify_of_key {s : Settings} {d d' : Draft} {k : PrimaryKey} {i : Identifier}
    {ws : List Warning} (hk : d.entity.table.primaryKey = some k)
    (h : identify c s d = ⟨.ok i, d', ws⟩) :
    ∃ t, identifierOf c s d.entity k d.claims = ⟨.ok i, t, ws⟩ ∧
      d' = ⟨{ d.entity with identifier := i }, t⟩ := by
  simp only [identify, hk] at h
  generalize identifierOf c s d.entity k d.claims = o at h ⊢
  rcases o with ⟨_ | j, t, us⟩
  · cases h
  · cases h
    exact ⟨t, rfl, rfl⟩

theorem identify_eq_ok {s : Settings} {e : Entity} {d : Draft} {i : Identifier} {ws : List Warning}
    (h : identify c s ⟨e, {}⟩ = ⟨.ok i, d, ws⟩) :
    d.entity = { e with identifier := i } ∧ Identifies c e d.claims i := by
  cases hk : e.table.primaryKey with
  | none =>
    simp only [identify, hk, Outcome.warn_eq_ok] at h
    obtain ⟨_, us, hd, _⟩ := h
    obtain ⟨rfl, rfl, _⟩ := Outcome.done_eq_ok.1 hd
    have hkey : e.table.keyColumns = [] := by simp [Table.keyColumns, hk]
    exact ⟨rfl, by simp [hk], by simp [hkey], by simp [hkey], by simp⟩
  | some k =>
    obtain ⟨t, ho, rfl⟩ := identify_of_key hk h
    exact ⟨rfl, identifierOf_eq_ok ho hk⟩

theorem claim_of_free {d : Draft} {col : Column} (h : d.claims.has col = false) :
    d.claim col = .done () ⟨d.entity, d.claims.insert col⟩ := by
  simp [claim, Claims.mark, Claims.claim?, h, Outcome.onState, Outcome.done]

theorem claim_eq_ok {d d' : Draft} {col : Column} {u : Unit} {ws : List Warning} :
    d.claim col = ⟨.ok u, d', ws⟩ ↔
      d.claims.has col = false ∧ d' = ⟨d.entity, d.claims.insert col⟩ ∧ ws = [] := by
  cases h : d.claims.has col with
  | false => simp [claim_of_free h, eq_comm]
  | true => simp [claim, Claims.mark, Claims.claim?, h, Outcome.onState, Outcome.refused]

theorem append_eq_ok {d d' : Draft} {col : Column} {name : Name} {role : Role} {p : Property}
    {ws : List Warning} : append c d col name role = ⟨.ok p, d', ws⟩ ↔
      (∀ m ∈ d.entity.names, m.isPlain) ∧ name.isPlain ∧
        p.name = Naming.fresh d.entity.names name ∧ p.IsMadeFrom c d.entity.tableId col role false ∧
        (d.entity.isSealed = true → p.kind = .collection) ∧
        d' = ⟨d.entity.extend [p], d.claims⟩ ∧ ws = [] := by
  simp only [append, Outcome.ask_eq_ok, Naming.freshName_eq_ok, columnProperty_eq_ok]
  constructor
  · rintro ⟨_, ⟨htaken, hplain, rfl⟩, q, ⟨hname, hm⟩, h⟩
    cases ha : d.entity.add q with
    | error r => simp [ha] at h
    | ok e =>
      simp only [ha, Outcome.done_eq_ok] at h
      obtain ⟨rfl, rfl, rfl⟩ := h
      obtain ⟨hs, _, rfl⟩ := Entity.add_eq_ok.1 ha
      exact ⟨htaken, hplain, hname, hm, hs, rfl, rfl⟩
  · rintro ⟨htaken, hplain, hname, hm, hs, rfl, rfl⟩
    refine ⟨_, ⟨htaken, hplain, rfl⟩, p, ⟨hname, hm⟩, ?_⟩
    have hfree : Naming.isTaken d.entity.names p.name = false := by
      rw [hname]
      exact Naming.isTaken_fresh _ _
    rw [Entity.add_eq_ok.2 ⟨hs, hfree, rfl⟩]
    rfl

/-- A property on a free column, added under a name that was free. -/
structure Adds (c : Convention) (d : Draft) (col : Column) (role : Role) (p : Property)
    (d' : Draft) : Prop where
  free : d.claims.has col = false
  made : p.IsMadeFrom c d.entity.tableId col role false
  entity_eq : d'.entity = d.entity.extend [p]
  claims_eq : d'.claims = d.claims.insert col

theorem addScalar_eq_ok {d d' : Draft} {col : Column} {name : Name} {p : Property}
    {ws : List Warning} : addScalar c d col name = ⟨.ok p, d', ws⟩ ↔
      (∀ m ∈ d.entity.names, m.isPlain) ∧ name.isPlain ∧
        p.name = Naming.fresh d.entity.names name ∧ Adds c d col .scalar p d' ∧
        (d.entity.isSealed = true → p.kind = .collection) ∧ ws = [] := by
  simp only [addScalar, Outcome.andThen_eq_ok, Outcome.map_eq_ok, append_eq_ok, claim_eq_ok]
  constructor
  · rintro ⟨_, _, _, _, ⟨htaken, hplain, hname, hm, hs, rfl, rfl⟩, ⟨_, ⟨hf, rfl, rfl⟩, rfl⟩, rfl⟩
    exact ⟨htaken, hplain, hname, ⟨hf, hm, rfl, rfl⟩, hs, rfl⟩
  · rintro ⟨htaken, hplain, hname, ⟨hf, hm, he, hc⟩, hs, rfl⟩
    rcases d' with ⟨e, claims⟩
    cases he
    cases hc
    exact ⟨p, _, [], [], ⟨htaken, hplain, hname, hm, hs, rfl, rfl⟩, ⟨(), ⟨hf, rfl, rfl⟩, rfl⟩, rfl⟩

theorem addVersion_eq_ok {d d' : Draft} {col : Column} {v : Option Property} {ws : List Warning}
    (h : addVersion c d col = ⟨.ok v, d', ws⟩) :
    ∃ n p d₁, v = some p ∧ c.propertyName d.entity.tableId col.name = .ok n ∧
      p.name = Naming.fresh d.entity.names n ∧ Adds c d col .version p d₁ ∧
      d' = { d₁ with entity := { d₁.entity with version := some p } } := by
  simp only [addVersion, Outcome.ask_eq_ok, Outcome.andThen_eq_ok, Outcome.map_eq_ok, append_eq_ok,
    claim_eq_ok] at h
  obtain ⟨n, hn, p, d₁, _, _, ⟨_, _, hfresh, hm, _, rfl, _⟩, ⟨_, ⟨hf, rfl, _⟩, rfl⟩, _⟩ := h
  exact ⟨n, p, ⟨d.entity.extend [p], d.claims.insert col⟩, rfl, hn, hfresh, ⟨hf, hm, rfl, rfl⟩, rfl⟩

def searchedColumn (c : Convention) (id : TableId) (claims : Claims) :
    List Column → Answer (Option Column)
  | [] => pure none
  | col :: cols =>
    if claims.has col then searchedColumn c id claims cols
    else do
      if ← c.isVersionColumn id col.name then
        if LogicalType.countsVersions (← (← c.logicalType id col false).asKey) then pure (some col)
        else searchedColumn c id claims cols
      else searchedColumn c id claims cols

/-- The column that the version takes: the named one if it is there and free, or the one that is
found when none is named. -/
def versionColumn (c : Convention) (t : Table) (id : TableId) (claims : Claims) :
    Answer (Option Column) := do
  let name ← c.lockColumn id
  if name.truthy then pure ((← t.column name).filter fun col => !claims.has col)
  else searchedColumn c id claims t.columns

theorem searchedColumn_eq_some {id : TableId} {claims : Claims} {cols : List Column}
    {col : Column} (h : searchedColumn c id claims cols = .ok (some col)) :
    col ∈ cols ∧ claims.has col = false := by
  induction cols with
  | nil => cases h
  | cons col' cols ih =>
    have later : searchedColumn c id claims cols = .ok (some col) →
        col ∈ col' :: cols ∧ claims.has col = false := fun h =>
      ⟨List.mem_cons_of_mem _ (ih h).1, (ih h).2⟩
    rw [searchedColumn] at h
    split at h
    · exact later h
    · rename_i hfree
      obtain ⟨isVersion, _, h⟩ := Answer.bind_eq_ok.1 h
      split at h
      · simp only [Answer.bind_eq_ok] at h
        obtain ⟨_, _, _, _, h⟩ := h
        split at h
        · obtain rfl := Option.some.inj (Answer.pure_eq_ok.1 h)
          exact ⟨List.mem_cons_self, by simpa using hfree⟩
        · exact later h
      · exact later h

theorem versionColumn_eq_some {t : Table} {id : TableId} {claims : Claims} {col : Column}
    (h : versionColumn c t id claims = .ok (some col)) :
    col ∈ t.columns ∧ claims.has col = false := by
  obtain ⟨name, _, h⟩ := Answer.bind_eq_ok.1 h
  split at h
  · obtain ⟨o, ho, h⟩ := Answer.bind_eq_ok.1 h
    obtain ⟨hcol, hfree⟩ := Option.filter_eq_some_iff.1 (Answer.pure_eq_ok.1 h)
    rw [Table.column_eq_ok ho] at hcol
    exact ⟨(mem_of_find? hcol).1, by simpa using hfree⟩
  · exact searchedColumn_eq_some h

/-- What the version step does: nothing, or it adds the version on the column that it takes. -/
inductive Versions (c : Convention) (d : Draft) :
    Option Column → Option Property → Draft → Prop
  | kept : Versions c d none none d
  | added {n : Name} {p : Property} {col : Column} {d₁ : Draft}
      (asked : c.propertyName d.entity.tableId col.name = .ok n)
      (named : p.name = Naming.fresh d.entity.names n) (adds : Adds c d col .version p d₁) :
      Versions c d (some col) (some p) { d₁ with entity := { d₁.entity with version := some p } }

theorem searchVersion_eq_ok {cols : List Column} {d d' : Draft} {v : Option Property}
    {ws : List Warning} (h : searchVersion c d cols = ⟨.ok v, d', ws⟩) :
    ∃ o, searchedColumn c d.entity.tableId d.claims cols = .ok o ∧ Versions c d o v d' := by
  induction cols generalizing ws with
  | nil =>
    obtain ⟨rfl, rfl, _⟩ := Outcome.done_eq_ok.1 h
    exact ⟨none, rfl, .kept⟩
  | cons col cols ih =>
    unfold searchVersion at h
    dsimp only at h
    rw [searchedColumn]
    split at h
    · rename_i hclaimed
      rw [if_pos hclaimed]
      exact ih h
    · rename_i hfree
      rw [if_neg hfree]
      obtain ⟨isVersion, hv, h⟩ := Outcome.ask_eq_ok.1 h
      rw [hv]
      cases isVersion with
      | false => exact ih h
      | true =>
        obtain ⟨type, ht, h⟩ := Outcome.ask_eq_ok.1 h
        obtain ⟨given, hg, hk⟩ := Answer.bind_eq_ok.1 ht
        split at h
        · rename_i hcounts
          obtain ⟨n, p, d₁, rfl, hn, hfresh, hadd, rfl⟩ := addVersion_eq_ok h
          refine ⟨some col, ?_, .added hn hfresh hadd⟩
          simp [bind, Except.bind, hg, hk, hcounts]
        · rename_i hcounts
          obtain ⟨_, us, h, _⟩ := Outcome.warn_eq_ok.1 h
          obtain ⟨o, ho, hvers⟩ := ih h
          refine ⟨o, ?_, hvers⟩
          simpa [bind, Except.bind, hg, hk, hcounts] using ho

theorem addNamedVersion_eq_ok {name : Name} {d d' : Draft} {v : Option Property}
    {ws : List Warning} (h : addNamedVersion c d name = ⟨.ok v, d', ws⟩) :
    ∃ o, d.entity.table.column name = .ok o ∧
      Versions c d (o.filter fun col => !d.claims.has col) v d' := by
  obtain ⟨o, ho, h⟩ := Outcome.ask_eq_ok.1 h
  refine ⟨o, ho, ?_⟩
  cases o with
  | none =>
    obtain ⟨_, us, h, _⟩ := Outcome.warn_eq_ok.1 h
    obtain ⟨rfl, rfl, _⟩ := Outcome.done_eq_ok.1 h
    exact .kept
  | some col =>
    simp only at h
    split at h
    · rename_i hclaimed
      obtain ⟨_, us, h, _⟩ := Outcome.warn_eq_ok.1 h
      obtain ⟨rfl, rfl, _⟩ := Outcome.done_eq_ok.1 h
      simpa [Option.filter, hclaimed] using Versions.kept
    · rename_i hfree
      obtain ⟨n, p, d₁, rfl, hn, hfresh, hadd, rfl⟩ := addVersion_eq_ok h
      simpa [Option.filter, hfree] using Versions.added hn hfresh hadd

theorem addVersionOf_eq_ok {d d' : Draft} {v : Option Property} {ws : List Warning}
    (h : addVersionOf c d = ⟨.ok v, d', ws⟩) :
    ∃ o, versionColumn c d.entity.table d.entity.tableId d.claims = .ok o ∧
      Versions c d o v d' := by
  obtain ⟨name, hname, h⟩ := Outcome.ask_eq_ok.1 h
  rw [versionColumn, hname]
  split at h
  · rename_i ht
    obtain ⟨o, ho, hv⟩ := addNamedVersion_eq_ok h
    exact ⟨_, by simp [bind, Except.bind, ht, ho], hv⟩
  · rename_i ht
    obtain ⟨o, ho, hv⟩ := searchVersion_eq_ok h
    exact ⟨o, by simpa [bind, Except.bind, ht] using ho, hv⟩

theorem addScalars_cons_eq_ok {col : Column} {cols : List Column} {done : Named Column}
    {d d' : Draft} {ps : List Property} {ws : List Warning} (hf : d.claims.has col = false) :
    addScalars c (col :: cols) done d = ⟨.ok ps, d', ws⟩ ↔
      ∃ name p d₁ qs, c.propertyName d.entity.tableId col.name = .ok name ∧ name.isPlain ∧
        done.get? name = none ∧ addScalar c d col name = ⟨.ok p, d₁, []⟩ ∧
        addScalars c cols (done ++ [(name, col)]) d₁ = ⟨.ok qs, d', ws⟩ ∧ ps = p :: qs := by
  rw [addScalars]
  simp only [hf, Bool.false_eq_true, if_false, Outcome.ask_eq_ok, namesake?_eq_ok]
  constructor
  · rintro ⟨name, hname, o, ⟨hplain, rfl⟩, h⟩
    cases hd : done.get? name with
    | some other => simp [hd] at h
    | none =>
      simp only [hd, Outcome.andThen_eq_ok, Outcome.map_eq_ok] at h
      obtain ⟨p, d₁, vs, us, hp, ⟨qs, hq, rfl⟩, rfl⟩ := h
      obtain rfl : vs = [] := (addScalar_eq_ok.1 hp).2.2.2.2.2
      exact ⟨name, p, d₁, qs, hname, hplain, hd, hp, by simpa using hq, rfl⟩
  · rintro ⟨name, p, d₁, qs, hname, hplain, hd, hp, hq, rfl⟩
    refine ⟨name, hname, none, ⟨hplain, hd.symm⟩, ?_⟩
    simp only [Outcome.andThen_eq_ok, Outcome.map_eq_ok]
    exact ⟨p, d₁, [], ws, hp, ⟨qs, hq, rfl⟩, rfl⟩

def freeColumns (claims : Claims) (cols : List Column) : List Column :=
  cols.filter fun col => !claims.has col

theorem freeColumns_insert {claims : Claims} {col : Column} {cols : List Column}
    (h : col.name.key ∉ nameKeys cols) :
    freeColumns (claims.insert col) cols = freeColumns claims cols := by
  apply List.filter_congr
  intro x hx
  have hne : col.name.same x.name = false := by
    rw [Bool.eq_false_iff]
    intro hs
    exact h (List.mem_map.2 ⟨x, hx, (Document.same_iff.1 hs).symm⟩)
  rw [Claims.has_insert, hne, Bool.false_or]

/-- Every free column gets the scalar that is sketched for it, in order. -/
theorem addScalars_sketched {cols : List Column} {done : Named Column} {d d' : Draft}
    {ps : List Property} {ws : List Warning} (hn : (nameKeys cols).Nodup)
    (h : addScalars c cols done d = ⟨.ok ps, d', ws⟩) :
    ∃ qs, List.Forall₂ (Property.IsSketchOf c d.entity.tableId .scalar)
        (freeColumns d.claims cols) qs ∧
      ps = Property.nameInOrder d.entity.names qs ∧ d'.entity = d.entity.extend ps := by
  induction cols generalizing done d ps with
  | nil =>
    obtain ⟨rfl, rfl, _⟩ := Outcome.done_eq_ok.1 h
    exact ⟨[], .nil, rfl, by simp⟩
  | cons col cols ih =>
    rw [nameKeys_cons, List.nodup_cons] at hn
    cases hf : d.claims.has col with
    | true =>
      rw [addScalars, if_pos hf] at h
      simpa [freeColumns, hf] using ih hn.2 h
    | false =>
      obtain ⟨name, p, d₁, rest, hname, _, _, hp, hrest, rfl⟩ := (addScalars_cons_eq_ok hf).1 h
      obtain ⟨_, _, hfresh, hadd, _, _⟩ := addScalar_eq_ok.1 hp
      obtain ⟨qs, hqs, rfl, he⟩ := ih hn.2 hrest
      rw [hadd.claims_eq, freeColumns_insert hn.1, hadd.entity_eq] at hqs
      have hfree : freeColumns d.claims (col :: cols) = col :: freeColumns d.claims cols := by
        simp [freeColumns, hf]
      refine ⟨p.named name :: qs, ?_, ?_, by rw [he, hadd.entity_eq]; simp⟩
      · rw [hfree]
        exact .cons ⟨hname, hadd.made.named name⟩ hqs
      · rw [Property.nameInOrder, hadd.entity_eq, Entity.names_extend, Property.named_name,
          ← hfresh]
        rfl

theorem addScalars_eq_ok {cols : List Column} {done : Named Column} {d d' : Draft}
    {ps : List Property} {ws : List Warning} (hn : (nameKeys cols).Nodup)
    (h : addScalars c cols done d = ⟨.ok ps, d', ws⟩) :
    List.Forall₂ (fun col p => p.IsMadeFrom c d.entity.tableId col .scalar false)
        (freeColumns d.claims cols) ps ∧ d'.entity = d.entity.extend ps := by
  obtain ⟨qs, hqs, rfl, he⟩ := addScalars_sketched hn h
  exact ⟨forall₂_isMadeFrom _ hqs, he⟩

end Draft
end EntityMapping
