import EntityMapping.Proofs.ReferenceCoverage
import Mathlib.Data.List.Duplicate

/-! # Both sides of an association

An entity with an identifier has a collection for every listing of a foreign key that leads to it.
The owner of the key is found by its table and the reference along the key by the key itself, so
that each collection names the reference that it is the other side of.
-/
namespace EntityMapping
open Column

variable {c : Convention} {s : Settings} {schema : Schema}

def Property.target? (p : Property) : Option Name := p.role.association?.map Association.target

/-- The name of the reference that a collection is the other side of. -/
def Property.otherName (p : Property) : Name := (p.role.otherSide?.map OtherSide.name).getD .null

namespace Entity

def collectionsAlong (e : Entity) (f : ForeignKey) : List Property :=
  e.collections.filter fun q => q.foreignKey? = some f

/-- The target has the other sides of the references of an owner along a key: one for each time
that the key is listed, named after the first reference. -/
structure Mirrors (target owner : Entity) (p : Property) (f : ForeignKey) : Prop where
  length_eq : (target.collectionsAlong f).length = owner.table.foreignKeys.count f
  target_eq : ∀ q ∈ target.collectionsAlong f, q.target? = some owner.name
  otherName_eq : ∀ q ∈ target.collectionsAlong f,
    (owner.referenceFor? f).map Property.name = some q.otherName
  unique : owner.table.foreignKeys.count f = 1 →
    ∃ q, target.collectionsAlong f = [q] ∧ q.otherName = p.name

end Entity

/-- Two collections do not name the same reference of the same owner, unless it lists their one key
more than once. -/
def Registry.TellsApart (r : Registry) (q q' : Property) : Prop :=
  q.target? = q'.target? → q.otherName = q'.otherName → q.otherName ≠ .null →
    ∃ owner ∈ r.entities, q.target? = some owner.name ∧ ∃ f, q.foreignKey? = some f ∧
      q'.foreignKey? = some f ∧ 1 < owner.table.foreignKeys.count f

theorem length_filter_eq_count {α β : Type} [DecidableEq β] (g : α → Option β) (l : List α)
    (b : β) : (l.filter fun a => g a = some b).length = (l.map g).count (some b) := by
  rw [List.count, List.countP_map, List.countP_eq_length_filter]
  congr 1
  apply List.filter_congr
  intro a _
  simp [beq_eq_decide]

theorem Schema.count_foreignKeys {t : Table} (ht : t ∈ schema.tables) {f : ForeignKey}
    (hf : f ∈ t.foreignKeys) : schema.foreignKeys.count f = t.foreignKeys.count f := by
  obtain ⟨as, bs, hsplit⟩ := List.append_of_mem ht
  have hids := schema.ids_nodup
  rw [hsplit, List.map_append, List.map_cons] at hids
  have hother := (List.nodup_middle.1 hids).notMem
  have hnot : ∀ us : List Table, us ⊆ as ++ bs → f ∉ us.flatMap Table.foreignKeys := by
    intro us hus hm
    obtain ⟨u, hu, hfu⟩ := List.mem_flatMap.1 hm
    have hid : u.id.key = t.id.key :=
      (TableId.same_iff.1 (u.foreign_owner f hfu)).symm.trans
        (TableId.same_iff.1 (t.foreign_owner f hf))
    rw [← List.map_append] at hother
    exact hother (List.mem_map.2 ⟨u, hus hu, hid⟩)
  rw [Schema.foreignKeys, hsplit, List.flatMap_append, List.flatMap_cons, List.count_append,
    List.count_append, List.count_eq_zero.2 (hnot as (List.subset_append_left _ _)),
    List.count_eq_zero.2 (hnot bs (List.subset_append_right _ _))]
  omega

theorem Entity.count_incomingKeys_le (e : Entity) (f : ForeignKey) :
    (e.incomingKeys c s schema).count f ≤ schema.foreignKeys.count f := by
  unfold incomingKeys
  split
  · exact ((List.filter_sublist.trans List.filter_sublist).trans List.filter_sublist).count_le f
  · exact Nat.zero_le _

theorem Entity.mem_foreignKeys_of_incoming {e : Entity} {f : ForeignKey}
    (hf : f ∈ e.incomingKeys c s schema) : f ∈ schema.foreignKeys := by
  have hpos : 0 < (e.incomingKeys c s schema).count f := List.count_pos_iff.2 hf
  exact List.count_pos_iff.1 (hpos.trans_le (e.count_incomingKeys_le f))

theorem Entity.count_incomingKeys {e : Entity} (hid : e.hasIdentifier) {f : ForeignKey}
    (hin : schema.hasTable f.target) (hlead : entityName c s f.target = .ok e.name)
    (hskip : c.skipsCollection f = .ok false) :
    (e.incomingKeys c s schema).count f = schema.foreignKeys.count f := by
  have hto : leadsTo c s e.name f := by
    rw [leadsTo_of_entityName hlead]
    exact Document.same_self _
  rw [incomingKeys, if_pos hid, wanted, List.count_filter (by simpa using hskip),
    List.count_filter hto]
  exact List.count_filter hin

namespace Derives
variable {r : Registry} {t : Table} {v : Option Property} {ks : List (ForeignKey × Bool)}
  {refs scs colls : List Property} {e : Entity} {f : ForeignKey}

theorem length_collectionsAlong (h : Derives c s schema r t v ks refs scs colls e) :
    (e.collectionsAlong f).length = (e.incomingKeys c s schema).count f := by
  have hkeys : (e.incomingKeys c s schema).map some = colls.map Property.foreignKey? :=
    h.collected.map_eq_map fun _ _ ⟨_, _, hq⟩ => hq.foreignKey?_eq.symm
  rw [Entity.collectionsAlong, h.collections_eq, length_filter_eq_count, ← hkeys,
    List.count_map_of_injective _ _ (Option.some_injective _)]

theorem reference_unique (h : Derives c s schema r t v ks refs scs colls e)
    (hone : t.foreignKeys.count f = 1) {p q : Property} (hp : p ∈ refs) (hq : q ∈ refs)
    (hpf : p.foreignKey? = some f) (hqf : q.foreignKey? = some f) : p = q := by
  obtain ⟨fs, hsub, hmap⟩ := h.references_order
  have hlength : (refs.filter fun p => p.foreignKey? = some f).length ≤ 1 := by
    rw [length_filter_eq_count, hmap, List.count_map_of_injective _ _ (Option.some_injective _),
      ← hone]
    exact hsub.count_le f
  have hpm : p ∈ refs.filter fun p => p.foreignKey? = some f :=
    List.mem_filter.2 ⟨hp, by simpa using hpf⟩
  have hqm : q ∈ refs.filter fun p => p.foreignKey? = some f :=
    List.mem_filter.2 ⟨hq, by simpa using hqf⟩
  generalize refs.filter (fun p => p.foreignKey? = some f) = l at hlength hpm hqm
  rcases l with _ | ⟨a, _ | _⟩
  · cases hpm
  · rw [List.mem_singleton.1 hpm, List.mem_singleton.1 hqm]
  · simp at hlength

theorem isCollection_of_mem (h : Derives c s schema r t v ks refs scs colls e) {q : Property}
    (hq : q ∈ e.collections) (hqf : q.foreignKey? = some f) :
    ∃ owner, r.ofTable? f.table = some owner ∧ q.IsCollection c owner f := by
  rw [h.collections_eq] at hq
  obtain ⟨g, _, owner, howner, hc⟩ := h.collected.exists_left hq
  obtain rfl : g = f := Option.some.inj (hc.foreignKey?_eq.symm.trans hqf)
  exact ⟨owner, howner, hc⟩

end Derives

theorem Property.IsCollection.target?_eq {owner : Entity} {f : ForeignKey} {q : Property}
    (h : q.IsCollection c owner f) : q.target? = some owner.name := by
  obtain ⟨_, _, _, _, hr⟩ := h.leads
  rw [target?, hr]
  rfl

theorem Property.IsCollection.otherName_eq {owner : Entity} {f : ForeignKey} {q : Property}
    (h : q.IsCollection c owner f) :
    q.otherName = ((owner.referenceFor? f).map Property.name).getD .null := by
  obtain ⟨_, _, _, _, hr⟩ := h.leads
  rw [otherName, hr]
  rfl

namespace Schema

theorem IsTyped.exists_target (hs : schema.IsTyped) {r : Registry}
    (hall : List.Forall₂ (IsDerived c s schema r) schema.tables r.entities) {f : ForeignKey}
    (hin : schema.hasTable f.target) :
    ∃ t ∈ schema.tables, t.id = f.target ∧ ∃ e ∈ r.entities, IsDerived c s schema r t e ∧
      entityName c s f.target = .ok e.name := by
  obtain ⟨t, ht, hid⟩ := hasTable_iff.1 hin
  obtain ⟨e, he, hd⟩ := hall.exists_right ht
  have htarget : t.id = f.target := (hs t ht).1.eq_of_key hid
  refine ⟨t, ht, htarget, e, he, hd, ?_⟩
  rw [← htarget]
  exact hd.name_eq

end Schema

namespace Derives
variable {r : Registry} {t : Table} {v : Option Property} {ks : List (ForeignKey × Bool)}
  {refs scs colls : List Property} {e : Entity} {f : ForeignKey}

theorem referenceFor?_eq_some (h : Derives c s schema r t v ks refs scs colls e)
    (hs : schema.IsTyped) (ht : t ∈ schema.tables) (hf : f ∈ schema.foreignKeys) {p : Property}
    (hp : e.referenceFor? f = some p) : p ∈ refs ∧ p.foreignKey? = some f := by
  obtain ⟨d, hd, _⟩ := h.completed
  have hmem := List.mem_of_find?_eq_some hp
  have hsame := List.find?_some hp
  rw [h.references_eq] at hmem
  obtain ⟨k, hk, hr⟩ := hd.referenced.exists_left hmem
  rw [hr.foreignKey?_eq, Option.any_some] at hsame
  have hkt : k.1 ∈ t.foreignKeys := (treated_of_mem_boundKeys hd.planned hk).1
  have hkey := (hs.foreignKey hf).eq_of_same
    (hs.foreignKey (Schema.mem_foreignKeys_iff.2 ⟨t, ht, hkt⟩)) hsame
  exact ⟨hmem, by rw [hr.foreignKey?_eq, hkey]⟩

theorem exists_referenceFor? (h : Derives c s schema r t v ks refs scs colls e) {p : Property}
    (hp : p ∈ refs) (hpf : p.foreignKey? = some f) : ∃ q, e.referenceFor? f = some q := by
  rw [← Option.isSome_iff_exists, Entity.referenceFor?, List.find?_isSome, h.references_eq]
  exact ⟨p, hp, by simp [hpf]⟩

theorem exists_reference (h : Derives c s schema r t v ks refs scs colls e) (hs : schema.IsTyped)
    (ht : t ∈ schema.tables) (hf : f ∈ schema.foreignKeys) {q : Property}
    (hq : q.IsCollection c e f) (hnull : q.otherName ≠ .null) :
    ∃ p ∈ refs, p.foreignKey? = some f ∧ p.name = q.otherName := by
  have hname := hq.otherName_eq
  cases hp : e.referenceFor? f with
  | none =>
    rw [hp] at hname
    exact absurd hname hnull
  | some p =>
    rw [hp] at hname
    obtain ⟨hpm, hpf⟩ := h.referenceFor?_eq_some hs ht hf hp
    exact ⟨p, hpm, hpf, hname.symm⟩

/-- References of one owner with the same name are one reference, so that collections which name it
belong to one key. -/
theorem key_eq_of_otherName (h : Derives c s schema r t v ks refs scs colls e)
    (hs : schema.IsTyped) (ht : t ∈ schema.tables) {f' : ForeignKey} (hf : f ∈ schema.foreignKeys)
    (hf' : f' ∈ schema.foreignKeys) {q q' : Property} (hq : q.IsCollection c e f)
    (hq' : q'.IsCollection c e f') (hother : q.otherName = q'.otherName)
    (hnull : q.otherName ≠ .null) : f = f' ∧ f ∈ t.foreignKeys := by
  obtain ⟨d, hd, _⟩ := h.completed
  obtain ⟨p, hpm, hpf, hname⟩ := h.exists_reference hs ht hf hq hnull
  obtain ⟨p', hpm', hpf', hname'⟩ := h.exists_reference hs ht hf' hq' (hother ▸ hnull)
  have hnames : p.name = p'.name := hname.trans (hother.trans hname'.symm)
  obtain rfl : p = p' :=
    List.inj_on_of_nodup_map hd.references_nodup hpm hpm' (congrArg Document.key hnames)
  obtain ⟨k, hk, hr⟩ := hd.referenced.exists_left hpm
  obtain rfl : k.1 = f := Option.some.inj (hr.foreignKey?_eq.symm.trans hpf)
  exact ⟨Option.some.inj (hpf.symm.trans hpf'), (treated_of_mem_boundKeys hd.planned hk).1⟩

/-- The collections of a target along a key are the other sides of the references of its owner. -/
theorem mirrors {u : Table} {v' : Option Property} {ks' : List (ForeignKey × Bool)}
    {refs' scs' colls' : List Property} {target : Entity}
    (h : Derives c s schema r t v ks refs scs colls e)
    (hu : Derives c s schema r u v' ks' refs' scs' colls' target) (hs : schema.IsTyped)
    (ht : t ∈ schema.tables) (hf : f ∈ t.foreignKeys) (hown : r.ofTable? f.table = some e)
    {p : Property} (hp : p ∈ refs) (hpf : p.foreignKey? = some f)
    (hlisted : (target.incomingKeys c s schema).count f = t.foreignKeys.count f) :
    target.Mirrors e p f := by
  have hmem : f ∈ schema.foreignKeys := Schema.mem_foreignKeys_iff.2 ⟨t, ht, hf⟩
  have hcollection : ∀ q ∈ target.collectionsAlong f, q.IsCollection c e f := by
    intro q hq
    obtain ⟨hq, hqf⟩ := List.mem_filter.1 hq
    obtain ⟨o, ho, hc⟩ := hu.isCollection_of_mem hq (of_decide_eq_true hqf)
    rwa [Option.some.inj (hown.symm.trans ho)]
  obtain ⟨p', hp'⟩ := h.exists_referenceFor? hp hpf
  have hother : ∀ q ∈ target.collectionsAlong f, q.otherName = p'.name := by
    intro q hq
    rw [(hcollection q hq).otherName_eq, hp']
    rfl
  have hlength : (target.collectionsAlong f).length = e.table.foreignKeys.count f := by
    rw [hu.length_collectionsAlong, hlisted, h.table_eq]
  refine ⟨hlength, fun q hq => (hcollection q hq).target?_eq, ?_, ?_⟩
  · intro q hq
    rw [hp', hother q hq]
    rfl
  · intro hone
    obtain ⟨q, hq⟩ := List.length_eq_one_iff.1 (hlength.trans hone)
    obtain ⟨hpm, hpf'⟩ := h.referenceFor?_eq_some hs ht hmem hp'
    have hp_eq : p' = p := h.reference_unique (h.table_eq ▸ hone) hpm hp hpf' hpf
    exact ⟨q, hq, by rw [hother q (by simp [hq]), hp_eq]⟩

end Derives

namespace Registry
variable {r : Registry}

theorem mirrors_of_mem (h : ofSchema c s schema = .ok r) (hs : schema.IsTyped) {owner : Entity}
    (howner : owner ∈ r.entities) {p : Property} (hp : p ∈ owner.references) {f : ForeignKey}
    (hpf : p.foreignKey? = some f) : ∃ target ∈ r.entities, p.target? = some target.name ∧
      (target.hasIdentifier → c.skipsCollection f = .ok false → target.Mirrors owner p f) := by
  obtain ⟨hsound, hall⟩ := ofSchema_eq_ok h
  obtain ⟨t, ht, v, ks, refs, scs, colls, ho⟩ := hall.exists_left howner
  obtain ⟨d, hd, _⟩ := ho.completed
  rw [ho.references_eq] at hp
  obtain ⟨k, hk, hr⟩ := hd.referenced.exists_left hp
  obtain rfl : k.1 = f := Option.some.inj (hr.foreignKey?_eq.symm.trans hpf)
  obtain ⟨hft, hin, _⟩ := treated_of_mem_boundKeys hd.planned hk
  obtain ⟨u, _, _, target, htarget, ⟨v', ks', refs', scs', colls', hu⟩, hname⟩ :=
    hs.exists_target hall hin
  refine ⟨target, htarget, ?_, ?_⟩
  · obtain ⟨n, hn, hrole, _⟩ := hr.leads
    rw [Property.target?, hrole, Except.ok.inj (hname.symm.trans hn)]
    rfl
  · intro hid hskip
    have hown : r.ofTable? k.1.table = some owner := by
      refine hsound.ofTable?_eq howner ?_
      rw [ho.table_eq]
      exact (TableId.same_iff.1 (t.foreign_owner _ hft)).symm
    refine ho.mirrors hu hs ht hft hown hp hpf ?_
    rw [Entity.count_incomingKeys hid hin hname hskip, Schema.count_foreignKeys ht hft]

/-- Collections which name one reference belong to one key, and that key is listed for each of
them. -/
theorem collections_pairwise (h : ofSchema c s schema = .ok r) (hs : schema.IsTyped) {e : Entity}
    (he : e ∈ r.entities) : e.collections.Pairwise r.TellsApart := by
  obtain ⟨hsound, hall⟩ := ofSchema_eq_ok h
  obtain ⟨_, _, v, ks, refs, scs, colls, hd⟩ := hall.exists_left he
  rw [hd.collections_eq, List.pairwise_iff_getElem]
  intro i j hi hj hij htarget hother hnull
  have hlength := hd.collected.length_eq
  have hi' : i < (e.incomingKeys c s schema).length := hlength ▸ hi
  have hj' : j < (e.incomingKeys c s schema).length := hlength ▸ hj
  obtain ⟨o, ho, hq⟩ := hd.collected.get hi' hi
  obtain ⟨o', ho', hq'⟩ := hd.collected.get hj' hj
  simp only [List.get_eq_getElem] at ho hq ho' hq'
  have howner := mem_of_ofTable?_eq_some ho
  obtain rfl : o = o' := hsound.eq_of_name_eq howner (mem_of_ofTable?_eq_some ho')
    (Option.some.inj (hq.target?_eq.symm.trans (htarget.trans hq'.target?_eq)))
  obtain ⟨t, ht, _, _, _, _, _, hown⟩ := hall.exists_left howner
  have hf := Entity.mem_foreignKeys_of_incoming (List.getElem_mem hi')
  have hf' := Entity.mem_foreignKeys_of_incoming (List.getElem_mem hj')
  obtain ⟨hkeys, hft⟩ := hown.key_eq_of_otherName hs ht hf hf' hq hq' hother hnull
  have htwice : 2 ≤ (e.incomingKeys c s schema).count (e.incomingKeys c s schema)[i] :=
    List.duplicate_iff_two_le_count.1
      (List.duplicate_iff_exists_distinct_get.2 ⟨⟨i, hi'⟩, ⟨j, hj'⟩, hij, rfl, hkeys⟩)
  refine ⟨o, howner, hq.target?_eq, _, hq.foreignKey?_eq, by rw [hq'.foreignKey?_eq, hkeys], ?_⟩
  rw [hown.table_eq, ← Schema.count_foreignKeys ht hft]
  exact htwice.trans (e.count_incomingKeys_le _)

/-- Every reference has its other sides, and other sides are told apart, as far as keys are listed
once. -/
theorem bidirectional (h : ofSchema c s schema = .ok r) (hs : schema.IsTyped) :
    (∀ owner ∈ r.entities, ∀ p ∈ owner.references, ∀ f, p.foreignKey? = some f →
      ∃ target ∈ r.entities, p.target? = some target.name ∧
        (target.hasIdentifier → c.skipsCollection f = .ok false → target.Mirrors owner p f)) ∧
    ∀ e ∈ r.entities, e.collections.Pairwise r.TellsApart :=
  ⟨fun _ howner _ hp _ hf => mirrors_of_mem h hs howner hp hf,
    fun _ he => collections_pairwise h hs he⟩

/-- The order refers to its customer, and the customer has one collection of orders, which is the
other side of that reference. -/
theorem bidirectional_shop : ∃ r, ofSchema .plain {} .shop = .ok r ∧
    (∃ owner ∈ r.entities, ∃ p ∈ owner.references, ∃ target ∈ r.entities, ∃ q,
      p.foreignKey? = some .ofOrder ∧ p.target? = some target.name ∧
      target.collectionsAlong .ofOrder = [q] ∧ q.target? = some owner.name ∧
      q.otherName = p.name) ∧
    ∀ e ∈ r.entities, e.collections.Pairwise r.TellsApart := by
  have hrun : (ofSchema .plain {} .shop).toOption.any fun r =>
      (∀ e ∈ r.entities, e.hasIdentifier) ∧ ∃ owner ∈ r.entities,
        owner.table.foreignKeys.count .ofOrder = 1 ∧
          ∃ p ∈ owner.references, p.foreignKey? = some .ofOrder := by decide
  obtain ⟨r, h, hfound⟩ := exists_ok_of_toOption_any hrun
  obtain ⟨hids, owner, howner, hone, p, hp, hpf⟩ := of_decide_eq_true hfound
  obtain ⟨hmirrors, hapart⟩ := bidirectional h (by decide)
  obtain ⟨target, htarget, hleads, hmirror⟩ := hmirrors owner howner p hp .ofOrder hpf
  have hm := hmirror (hids target htarget) rfl
  obtain ⟨q, hq, hother⟩ := hm.unique hone
  have hback := hm.target_eq q (by rw [hq]; exact List.mem_cons_self)
  exact ⟨r, h, ⟨owner, howner, p, hp, target, htarget, q, hpf, hleads, hq, hback, hother⟩, hapart⟩

end Registry

def Table.doubledOrders : Table :=
  { Table.orders with
    foreignKeys := [.ofOrder, .ofOrder]
    foreign_owner := by decide
    foreign_columns := by decide }

def Schema.doubledShop : Schema where
  tables := [.customers, .doubledOrders]
  ids_plain := by decide
  ids_nodup := by decide
  targets_plain := by decide
  targets_known := by decide

/-- Two different collections along one key name the same reference of the same owner. -/
def Entity.DoublesKey (e : Entity) (f : ForeignKey) : Prop :=
  ∃ q ∈ e.collectionsAlong f, ∃ q' ∈ e.collectionsAlong f, q ≠ q' ∧ q.target? = q'.target? ∧
    q.otherName = q'.otherName ∧ q.otherName ≠ .null

instance (e : Entity) (f : ForeignKey) : Decidable (e.DoublesKey f) :=
  inferInstanceAs (Decidable (∃ q ∈ e.collectionsAlong f, _))

namespace Registry

theorem doublesKey_doubledShop : ∃ r, ofSchema .plain {} .doubledShop = .ok r ∧
    ∃ owner ∈ r.entities, ∃ p ∈ owner.references, p.foreignKey? = some .ofOrder ∧
      ∃ target ∈ r.entities, p.target? = some target.name ∧ target.hasIdentifier ∧
        Convention.plain.skipsCollection .ofOrder = .ok false ∧ target.DoublesKey .ofOrder := by
  have hrun : (ofSchema .plain {} .doubledShop).toOption.any fun r =>
      ∃ owner ∈ r.entities, ∃ p ∈ owner.references, p.foreignKey? = some .ofOrder ∧
        ∃ target ∈ r.entities, p.target? = some target.name ∧ target.hasIdentifier ∧
          Convention.plain.skipsCollection .ofOrder = .ok false ∧
          target.DoublesKey .ofOrder := by decide
  obtain ⟨r, h, hfound⟩ := exists_ok_of_toOption_any hrun
  exact ⟨r, h, of_decide_eq_true hfound⟩

end Registry
end EntityMapping
