import EntityMapping.Proofs.Derivation.CollectStep
import EntityMapping.Proofs.FirstFailure

/-! # Sessions over a registry

Tables may be bound one at a time, in any order and more than once, and collections may be added in
between over any index. However such a session goes, the registry stays in order; a call that is
refused changes nothing; and the collections of a table are added once.
-/
namespace EntityMapping

structure Session where
  registry : Registry := {}
  bindings : List TableBinding := []
deriving DecidableEq

/-- What is asked of a session: to bind a table, or to add the collections along the keys of an
index to the entity of a binding that was handed out. -/
inductive Call
  | bind (t : Table)
  | collect (i : Nat) (x : ReferenceIndex)

namespace Session

def call (c : Convention) (s : Settings) (schema : Schema) (k : Session) :
    Call → Outcome Session Unit
  | .bind t =>
    ((k.registry.bind c s schema t).onState fun r => ⟨r, k.bindings⟩).andThen fun b k =>
      .done () { k with bindings := k.bindings ++ [b] }
  | .collect i x =>
    match k.bindings[i]? with
    | none => .refused (.unanswered .noEntry) k
    | some b =>
      ((k.registry.collect c x b).onState fun r => ⟨r, k.bindings⟩).andThen fun a k =>
        .done () { k with bindings := k.bindings.set i a.2 }

/-- The session after some calls, which goes on when a call is refused. -/
def run (c : Convention) (s : Settings) (schema : Schema) (k : Session) (calls : List Call) :
    Session :=
  calls.foldl (fun k a => (k.call c s schema a).state) k

def entity? (k : Session) (i : Nat) : Option Entity :=
  k.bindings[i]?.bind fun b => b.entity.bind k.registry.get?

/-- The entities have different names, in the order in which they were bound; they are sealed and
found by their tables, and the imports are their names. -/
structure IsInOrder (k : Session) : Prop where
  names_nodup : k.registry.nameKeys.Nodup
  names_eq : k.registry.names.map some = k.bindings.map TableBinding.entity
  isSealed : ∀ e ∈ k.registry.entities, e.isSealed = true
  located : ∀ e ∈ k.registry.entities, k.registry.ofTable? e.table.id = some e
  imports_eq : k.registry.imports = k.registry.names.map fun n => (n, n)

end Session

def ReferenceIndex.IsTyped (x : ReferenceIndex) : Prop := ∀ e ∈ x.entries, ∀ f ∈ e.2, f.IsTyped

instance (x : ReferenceIndex) : Decidable x.IsTyped :=
  inferInstanceAs (Decidable (∀ e ∈ _, ∀ f ∈ _, _))

theorem ReferenceIndex.IsTyped.leadingTo {x : ReferenceIndex} (h : x.IsTyped) (n : Name) :
    ∀ f ∈ x.leadingTo n, f.IsTyped := by
  intro f hf
  unfold ReferenceIndex.leadingTo Named.get? at hf
  cases hfound : x.entries.find? fun e => e.1.same n with
  | none => simp [hfound] at hf
  | some e =>
    rw [hfound] at hf
    exact h e (List.mem_of_find?_eq_some hfound) f hf

def Call.IsTyped : Call → Prop
  | .bind t => t.IsTyped
  | .collect _ x => x.IsTyped

instance (a : Call) : Decidable a.IsTyped :=
  match a with
  | .bind t => inferInstanceAs (Decidable t.IsTyped)
  | .collect _ x => inferInstanceAs (Decidable x.IsTyped)

variable {c : Convention} {s : Settings} {schema : Schema}

namespace Registry
variable {r r' : Registry}

/-- A table that is refused leaves the registry as it was. -/
theorem state_bind_of_error {t : Table} {refusal : Refusal}
    (h : (r.bind c s schema t).answer = .error refusal) : (r.bind c s schema t).state = r := by
  rw [bind_eq] at h ⊢
  cases hb : Entity.blank c s t with
  | error fault => rfl
  | ok b =>
    rw [hb, Outcome.ask_ok] at h
    rw [Outcome.ask_ok]
    dsimp only at h ⊢
    split
    · rfl
    · rename_i ho
      rw [ho] at h
      cases he : r.enter (Draft.complete c s schema ⟨b, {}⟩).state.entity with
      | error _ => rfl
      | ok r' => simp [he] at h

theorem get?_of_enter {d e : Entity} {n : Name} (h : r.enter d = .ok r')
    (hget : r.get? n = some e) : r'.get? n = some e := by
  rw [(enter_eq_ok.1 h).2]
  simp only [get?, List.find?_append] at hget ⊢
  rw [hget]
  rfl

end Registry

namespace Session
variable {k k' : Session} {t : Table} {i : Nat} {x : ReferenceIndex} {b : TableBinding}

theorem call_bind_of_ok {r' : Registry} {ws : List Warning}
    (h : k.registry.bind c s schema t = ⟨.ok b, r', ws⟩) :
    k.call c s schema (.bind t) = ⟨.ok (), ⟨r', k.bindings ++ [b]⟩, ws⟩ := by
  rw [call, h]
  simp [Outcome.onState, Outcome.andThen, Outcome.done, Outcome.after]

theorem call_bind_of_error {refusal : Refusal}
    (h : (k.registry.bind c s schema t).answer = .error refusal) :
    (k.call c s schema (.bind t)).answer = .error refusal ∧
      (k.call c s schema (.bind t)).state = k := by
  have hstate := Registry.state_bind_of_error h
  rw [call]
  simp [Outcome.onState, Outcome.andThen, h, hstate]

theorem call_collect_of_ok {a : List Property × TableBinding} {r' : Registry} {ws : List Warning}
    (hi : k.bindings[i]? = some b) (h : k.registry.collect c x b = ⟨.ok a, r', ws⟩) :
    k.call c s schema (.collect i x) =
      ⟨.ok (), ⟨r', k.bindings.set i b.finished⟩, ws⟩ := by
  rw [call, hi, ← (Registry.finished_of_collect h).2]
  simp [h, Outcome.onState, Outcome.andThen, Outcome.done, Outcome.after]

theorem call_collect_of_error {refusal : Refusal} (hi : k.bindings[i]? = some b)
    (h : (k.registry.collect c x b).answer = .error refusal) :
    k.call c s schema (.collect i x) = ⟨.error refusal,
      ⟨(k.registry.collect c x b).state, k.bindings⟩, (k.registry.collect c x b).warnings⟩ := by
  rw [call, hi]
  simp only [Outcome.onState, Outcome.andThen, h]

/-- What a call can do to a session: nothing, or it binds a table to a new entity, or it adds
collections to the entity of a binding, which is finished then unless the call is refused. -/
inductive Changes (c : Convention) (s : Settings) (schema : Schema) (k : Session) :
    Call → Session → Prop
  | kept (a : Call) : Changes c s schema k a k
  | bound {t : Table} {r' : Registry} {ws : List Warning} {b : TableBinding}
      (h : k.registry.bind c s schema t = ⟨.ok b, r', ws⟩) :
      Changes c s schema k (.bind t) ⟨r', k.bindings ++ [b]⟩
  | stopped {i : Nat} {x : ReferenceIndex} {b : TableBinding} (hi : k.bindings[i]? = some b)
      (hstage : b.stage = .registered) :
      Changes c s schema k (.collect i x) ⟨(k.registry.collect c x b).state, k.bindings⟩
  | finished {i : Nat} {x : ReferenceIndex} {b : TableBinding} (hi : k.bindings[i]? = some b)
      (hstage : b.stage = .registered) : Changes c s schema k (.collect i x)
        ⟨(k.registry.collect c x b).state, k.bindings.set i b.finished⟩

theorem changes_call (c : Convention) (s : Settings) (schema : Schema) (k : Session) (a : Call) :
    Changes c s schema k a (k.call c s schema a).state := by
  cases a with
  | bind t =>
    rcases ho : k.registry.bind c s schema t with ⟨refusal | b, r', ws⟩
    · rw [(call_bind_of_error (by rw [ho])).2]
      exact .kept _
    · rw [call_bind_of_ok ho]
      exact .bound ho
  | collect i x =>
    cases hi : k.bindings[i]? with
    | none =>
      rw [call, hi]
      exact .kept _
    | some b =>
      by_cases hstage : b.stage = .registered
      · rcases ho : k.registry.collect c x b with ⟨refusal | a, r', ws⟩
        · have hr' : r' = (k.registry.collect c x b).state := by rw [ho]
          rw [call_collect_of_error hi (by rw [ho])]
          exact .stopped hi hstage
        · have hr' : r' = (k.registry.collect c x b).state := by rw [ho]
          rw [call_collect_of_ok hi ho, hr']
          exact .finished hi hstage
      · have ho := Registry.collect_of_stage (c := c) (x := x) (r := k.registry) hstage
        rw [call_collect_of_error hi (by rw [ho]; rfl), ho]
        exact .kept _

/-- What every session keeps: a sound registry of sealed entities that have the names of their
tables, one for each binding and in the same order. -/
structure IsOrderly (c : Convention) (s : Settings) (k : Session) : Prop where
  filled : k.registry.IsFilled
  named : ∀ e ∈ k.registry.entities,
    e.table.id.IsTyped ∧ entityName c s e.table.id = .ok e.name
  bound : k.bindings.map TableBinding.entity = k.registry.names.map some

theorem isOrderly_empty : IsOrderly c s {} :=
  ⟨⟨Registry.sound_empty, fun _ he => absurd he List.not_mem_nil,
    fun _ he => absurd he List.not_mem_nil⟩, fun _ he => absurd he List.not_mem_nil, rfl⟩

namespace IsOrderly

theorem isInOrder (h : IsOrderly c s k) : k.IsInOrder :=
  ⟨h.filled.sound.names_nodup, h.bound.symm, h.filled.isSealed,
    fun _ he => h.filled.sound.ofTable?_eq he rfl, h.filled.sound.imports_eq⟩

theorem grows (h : IsOrderly c s k) {r : Registry} (hr : k.registry.GrowsTo r)
    {bs : List TableBinding}
    (hbs : bs.map TableBinding.entity = k.bindings.map TableBinding.entity) :
    IsOrderly c s ⟨r, bs⟩ := by
  have howners := hr.agreesOnOwners.entities
  refine ⟨hr.isFilled h.filled, fun e he => ?_, ?_⟩
  · obtain ⟨d, hd, hde⟩ := howners.exists_left he
    rw [← hde.table_eq, ← hde.name_eq]
    exact h.named d hd
  · have hnames : k.registry.names = r.names :=
      howners.map_eq_map fun _ _ hde => hde.name_eq
    rw [hbs, h.bound, hnames]

theorem key_not_mem (h : IsOrderly c s k) {e : Entity} {r : Registry}
    (hname : entityName c s e.table.id = .ok e.name) (henter : k.registry.enter e = .ok r) :
    e.table.id.key ∉ k.registry.tableKeys := by
  intro hm
  obtain ⟨d, hd, hkey⟩ := List.mem_map.1 hm
  obtain ⟨hdid, hdname⟩ := h.named d hd
  have hsame : d.table.id = e.table.id := hdid.eq_of_key hkey
  rw [hsame, hname] at hdname
  refine (Registry.enter_eq_ok.1 henter).1 (List.mem_map.2 ⟨d, hd, ?_⟩)
  rw [Except.ok.inj hdname]

theorem bind (h : IsOrderly c s k) (ht : t.IsTyped) {r : Registry} {ws : List Warning}
    (hb : k.registry.bind c s schema t = ⟨.ok b, r, ws⟩) :
    IsOrderly c s ⟨r, k.bindings ++ [b]⟩ := by
  have hdistinct : (k.registry.bind c s schema t).Keeps
      (fun r => ∀ e ∈ r.entities, e.HasDistinctNames) Warning.IsOfBinding :=
    Registry.bind_keeps h.filled.distinct t
  rw [hb] at hdistinct
  obtain ⟨e, he, henter, rfl⟩ := Registry.bind_eq_ok hb
  have hcompleted := Entity.isCompleted_of_ofTable he
  have hid : e.table.id.IsTyped := by
    rw [hcompleted.table_eq]
    exact ht.1
  have hname : entityName c s e.table.id = .ok e.name := by
    rw [hcompleted.table_eq]
    exact hcompleted.name_eq
  have hsound := Registry.sound_enter h.filled.sound henter (h.key_not_mem hname henter)
  have hent : r.entities = k.registry.entities ++ [e.freeze] := by
    rw [(Registry.enter_eq_ok.1 henter).2]
  refine ⟨⟨hsound, hdistinct.state, fun d hd => ?_⟩, fun d hd => ?_, ?_⟩
  · rw [hent, List.mem_append, List.mem_singleton] at hd
    rcases hd with hd | rfl
    · exact h.filled.isSealed d hd
    · rfl
  · rw [hent, List.mem_append, List.mem_singleton] at hd
    rcases hd with hd | rfl
    · exact h.named d hd
    · exact ⟨hid, hname⟩
  · rw [List.map_append, h.bound, Registry.names, Registry.names, hent]
    simp [TableBinding.ofEntity]

end IsOrderly

theorem Changes.isOrderly {a : Call} (hchange : Changes c s schema k a k')
    (h : IsOrderly c s k) (ha : a.IsTyped) : IsOrderly c s k' := by
  cases hchange with
  | kept => exact h
  | bound hb => exact h.bind ha hb
  | stopped => exact h.grows (Registry.growsTo_collect h.filled c _ _) rfl
  | @finished i x b hi =>
    refine h.grows (Registry.growsTo_collect h.filled c _ _) ?_
    rw [List.map_set]
    have hb : (k.bindings.map TableBinding.entity)[i]? = some b.finished.entity := by
      rw [List.getElem?_map, hi]
      rfl
    obtain ⟨_, heq⟩ := List.getElem?_eq_some_iff.1 hb
    rw [← heq, List.set_getElem_self]

theorem isOrderly_run (h : IsOrderly c s k) {calls : List Call} (hcalls : ∀ a ∈ calls, a.IsTyped) :
    IsOrderly c s (run c s schema k calls) := by
  induction calls generalizing k with
  | nil => exact h
  | cons a calls ih =>
    obtain ⟨ha, hcalls⟩ := List.forall_mem_cons.1 hcalls
    exact ih ((changes_call c s schema k a).isOrderly h ha) hcalls

namespace IsOrderly

theorem exists_entity (h : IsOrderly c s k) (hi : k.bindings[i]? = some b) :
    ∃ n e, b.entity = some n ∧ k.registry.get? n = some e := by
  have hm : b.entity ∈ k.registry.names.map some := by
    rw [← h.bound]
    exact List.mem_map_of_mem (List.mem_of_getElem? hi)
  obtain ⟨n, hn, hb⟩ := List.mem_map.1 hm
  obtain ⟨e, he, rfl⟩ := List.mem_map.1 hn
  exact ⟨e.name, e, hb.symm, h.filled.sound.get?_name he⟩

theorem pairwise_isApartFrom (h : IsOrderly c s k) :
    k.bindings.Pairwise TableBinding.IsApartFrom := by
  have hkeys : ((k.bindings.map TableBinding.entity).map (Option.map Document.key)).Nodup := by
    have hmap : (k.registry.names.map some).map (Option.map Document.key) =
        k.registry.nameKeys.map some := by
      simp [Registry.names, Registry.nameKeys]
    rw [h.bound, hmap]
    exact h.filled.sound.names_nodup.map (Option.some_injective _)
  rw [List.map_map] at hkeys
  refine (List.pairwise_map.1 hkeys).imp fun {a b} hab => ?_
  intro m hm n hn hsame
  apply hab
  rw [Function.comp, Function.comp, Option.mem_def.1 hm, Option.mem_def.1 hn]
  exact congrArg some (Document.same_iff.1 hsame)

theorem isApartFrom (h : IsOrderly c s k) {j : Nat} {a : TableBinding}
    (hi : k.bindings[i]? = some b) (hj : k.bindings[j]? = some a) (hij : j ≠ i) :
    a.IsApartFrom b := by
  obtain ⟨hlen, rfl⟩ := List.getElem?_eq_some_iff.1 hi
  obtain ⟨hlen', rfl⟩ := List.getElem?_eq_some_iff.1 hj
  have hpairs := List.pairwise_iff_getElem.1 h.pairwise_isApartFrom
  rcases Nat.lt_or_gt_of_ne hij with hlt | hlt
  · exact hpairs j i hlen' hlen hlt
  · exact (hpairs i j hlen hlen' hlt).symm

end IsOrderly

/-- All entities can be shown and take further names. -/
def IsReadable (k : Session) : Prop :=
  ∀ e ∈ k.registry.entities, e.HasPlainNames ∧ e.name.IsText

theorem isReadable_empty : IsReadable {} := fun _ he => absurd he List.not_mem_nil

theorem collect_reaches (hc : c.IsTotal) (h : IsOrderly c s k) (hk : k.IsReadable)
    (hx : x.IsTyped) (hi : k.bindings[i]? = some b) (hstage : b.stage = .registered) :
    (k.registry.collect c x b).Reaches fun _ r =>
      ∃ e : Entity, e.HasPlainNames ∧ (r = k.registry ∨ r = k.registry.update e) := by
  obtain ⟨n, e, hn, hget⟩ := h.exists_entity hi
  have he := (Registry.mem_of_get?_eq_some hget).1
  obtain ⟨hplain, htext⟩ := hk e he
  exact Registry.collect_reaches hc hstage (Option.bind_eq_some_iff.2 ⟨n, hn, hget⟩) hplain htext
    (h.named e he).1 (hx.leadingTo e.name)

theorem state_call_bind_of_error {refusal : Refusal}
    (hrefused : (k.call c s schema (.bind t)).answer = .error refusal) :
    (k.call c s schema (.bind t)).state = k := by
  rcases ho : k.registry.bind c s schema t with ⟨other | b, r, ws⟩
  · exact (call_bind_of_error (by rw [ho])).2
  · rw [call_bind_of_ok ho] at hrefused
    cases hrefused

/-- Where collections are refused, the session is as it was, or the table is registered and a
question about a collection is not answered. -/
theorem call_collect_cases {refusal : Refusal}
    (hrefused : (k.call c s schema (.collect i x)).answer = .error refusal) :
    (k.call c s schema (.collect i x)).state = k ∨ ∃ b, k.bindings[i]? = some b ∧
      b.stage = .registered ∧ (k.registry.collect c x b).answer = .error refusal := by
  cases hi : k.bindings[i]? with
  | none =>
    rw [call, hi]
    exact .inl rfl
  | some b =>
    by_cases hstage : b.stage = .registered
    · rcases ho : k.registry.collect c x b with ⟨other | a, r, ws⟩
      · rw [call_collect_of_error hi (by rw [ho])] at hrefused
        obtain rfl : other = refusal := Except.error.inj hrefused
        exact .inr ⟨b, rfl, hstage, by rw [ho]⟩
      · rw [call_collect_of_ok hi ho] at hrefused
        cases hrefused
    · have ho := Registry.collect_of_stage (c := c) (x := x) (r := k.registry) hstage
      rw [call_collect_of_error hi (by rw [ho]; rfl), ho]
      exact .inl rfl

/-- A call that is refused for a reason of its own leaves the session as it was. -/
theorem state_call_of_answered {a : Call} {refusal : Refusal}
    (hrefused : (k.call c s schema a).answer = .error refusal)
    (hanswered : ∀ fault, refusal ≠ .unanswered fault) : (k.call c s schema a).state = k := by
  cases a with
  | bind t => exact state_call_bind_of_error hrefused
  | collect i x =>
    rcases call_collect_cases hrefused with hkept | ⟨b, _, hstage, ho⟩
    · exact hkept
    · obtain ⟨fault, hfault⟩ := Registry.answer_collect_eq_error hstage ho
      exact absurd hfault (hanswered fault)

/-- Under a total convention every call that is refused leaves the session as it was. -/
theorem state_call_of_isTotal (hc : c.IsTotal) (h : IsOrderly c s k) (hk : k.IsReadable)
    {a : Call} (ha : a.IsTyped) {refusal : Refusal}
    (hrefused : (k.call c s schema a).answer = .error refusal) :
    (k.call c s schema a).state = k := by
  cases a with
  | bind t => exact state_call_bind_of_error hrefused
  | collect i x =>
    rcases call_collect_cases hrefused with hkept | ⟨b, hi, hstage, ho⟩
    · exact hkept
    · obtain ⟨_, _, _, hok, _⟩ := collect_reaches hc h hk ha hi hstage
      rw [hok] at ho
      cases ho

theorem IsReadable.bind (hc : c.IsTotal) (hk : k.IsReadable) (ht : t.IsTyped) {r : Registry}
    {ws : List Warning} (hb : k.registry.bind c s schema t = ⟨.ok b, r, ws⟩) :
    IsReadable ⟨r, k.bindings ++ [b]⟩ := by
  have hcases : (∃ refusal, t.FailsWith c s schema refusal ∧ _) ∨ _ :=
    Registry.bind_cases hc k.registry ht
  rcases hcases with ⟨_, _, ha⟩ | ⟨_, e, _, htext, hplain, ⟨r', _, henter, ho⟩ | ⟨_, _, _, ha⟩⟩
  · rw [hb] at ha
    cases ha
  · rw [hb] at ho
    cases ho
    intro d hd
    have hent : r.entities = k.registry.entities ++ [e.freeze] := by
      rw [(Registry.enter_eq_ok.1 henter).2]
    rw [hent, List.mem_append, List.mem_singleton] at hd
    rcases hd with hd | rfl
    · exact hk d hd
    · exact ⟨hplain, htext⟩
  · rw [hb] at ha
    cases ha

theorem IsReadable.collect (hc : c.IsTotal) (h : IsOrderly c s k) (hk : k.IsReadable)
    (hx : x.IsTyped) (hi : k.bindings[i]? = some b) (hstage : b.stage = .registered)
    (bs : List TableBinding) : IsReadable ⟨(k.registry.collect c x b).state, bs⟩ := by
  obtain ⟨a, r, ws, ho, e, he, hr⟩ := collect_reaches hc h hk hx hi hstage
  have hgrows := (Registry.growsTo_collect h.filled c x b).agreesOnOwners.entities
  rw [ho] at hgrows ⊢
  intro d hd
  obtain ⟨d', hd', hname, _, _⟩ := hgrows.exists_left hd
  refine ⟨?_, hname ▸ (hk d' hd').2⟩
  rcases hr with rfl | rfl
  · exact (hk d hd).1
  · obtain ⟨d₀, hd₀, rfl⟩ := List.mem_map.1 hd
    split
    · exact he
    · exact (hk d₀ hd₀).1

theorem Changes.isReadable (hc : c.IsTotal) {a : Call} (hchange : Changes c s schema k a k')
    (h : IsOrderly c s k) (hk : k.IsReadable) (ha : a.IsTyped) : k'.IsReadable := by
  cases hchange with
  | kept => exact hk
  | bound hb => exact hk.bind hc ha hb
  | stopped hi hstage => exact hk.collect hc h ha hi hstage _
  | finished hi hstage => exact hk.collect hc h ha hi hstage _

theorem isReadable_run (hc : c.IsTotal) (h : IsOrderly c s k) (hk : k.IsReadable)
    {calls : List Call} (hcalls : ∀ a ∈ calls, a.IsTyped) :
    (run c s schema k calls).IsReadable := by
  induction calls generalizing k with
  | nil => exact hk
  | cons a calls ih =>
    obtain ⟨ha, hcalls⟩ := List.forall_mem_cons.1 hcalls
    have hchange := changes_call c s schema k a
    exact ih (hchange.isOrderly h ha) (hchange.isReadable hc h hk ha) hcalls

def HasFinished (k : Session) (i : Nat) (e : Option Entity) : Prop :=
  ∃ b, k.bindings[i]? = some b ∧ b.stage = .collecting ∧ b.entity.bind k.registry.get? = e

/-- A binding that is registered still is not the finished one, nor of the same entity. -/
theorem IsOrderly.isApartFrom_of_stage (h : IsOrderly c s k) {j : Nat} {a : TableBinding}
    (hi : k.bindings[i]? = some b) (hstage : b.stage = .collecting)
    (hj : k.bindings[j]? = some a) (ha : a.stage = .registered) : j ≠ i ∧ a.IsApartFrom b := by
  have hij : j ≠ i := by
    rintro rfl
    obtain rfl : b = a := Option.some.inj (hi.symm.trans hj)
    rw [hstage] at ha
    cases ha
  exact ⟨hij, h.isApartFrom hi hj hij⟩

theorem Changes.hasFinished {a : Call} {e : Option Entity} (hchange : Changes c s schema k a k')
    (h : IsOrderly c s k) (hi : k.HasFinished i e) : k'.HasFinished i e := by
  obtain ⟨b, hb, hstage, rfl⟩ := hi
  obtain ⟨n, e, hn, hget⟩ := h.exists_entity hb
  have hlook : ∀ r : Registry, r.get? n = k.registry.get? n →
      b.entity.bind r.get? = b.entity.bind k.registry.get? := by
    intro r hr
    rw [hn]
    exact hr
  cases hchange with
  | kept => exact ⟨b, hb, hstage, rfl⟩
  | bound ho =>
    obtain ⟨d, _, henter, _⟩ := Registry.bind_eq_ok ho
    refine ⟨b, ?_, hstage, hlook _ ((Registry.get?_of_enter henter hget).trans hget.symm)⟩
    rw [List.getElem?_append_left (List.getElem?_eq_some_iff.1 hb).1]
    exact hb
  | stopped hj ha =>
    obtain ⟨_, hapart⟩ := h.isApartFrom_of_stage hb hstage hj ha
    refine ⟨b, hb, hstage, hlook _ (Registry.get?_collect h.filled fun m hm => ?_)⟩
    exact hapart m hm n hn
  | finished hj ha =>
    obtain ⟨hij, hapart⟩ := h.isApartFrom_of_stage hb hstage hj ha
    refine ⟨b, ?_, hstage, hlook _ (Registry.get?_collect h.filled fun m hm => ?_)⟩
    · rw [List.getElem?_set_ne hij]
      exact hb
    · exact hapart m hm n hn

theorem hasFinished_run (schema : Schema) {e : Option Entity} (h : IsOrderly c s k)
    (hi : k.HasFinished i e) {calls : List Call} (hcalls : ∀ a ∈ calls, a.IsTyped) :
    (run c s schema k calls).HasFinished i e := by
  induction calls generalizing k with
  | nil => exact hi
  | cons a calls ih =>
    obtain ⟨ha, hcalls⟩ := List.forall_mem_cons.1 hcalls
    have hchange := changes_call c s schema k a
    exact ih (hchange.isOrderly h ha) (hchange.hasFinished h hi) hcalls

/-- The collections of a finished binding are never added again. -/
theorem HasFinished.refused {e : Option Entity} (hi : k.HasFinished i e) (x : ReferenceIndex) :
    ∃ id, k.call c s schema (.collect i x) = .refused (.notRegistered id .collecting) k := by
  obtain ⟨b, hb, hstage, _⟩ := hi
  have hne : b.stage ≠ .registered := by
    rw [hstage]
    nofun
  have ho := Registry.collect_of_stage (c := c) (x := x) (r := k.registry) hne
  refine ⟨b.table.id, ?_⟩
  rw [call_collect_of_error hb (by rw [ho]; rfl), ho, hstage]
  rfl

theorem hasFinished_of_call
    (hanswer : (k.call c s schema (.collect i x)).answer = .ok ()) :
    (k.call c s schema (.collect i x)).state.HasFinished i
      ((k.call c s schema (.collect i x)).state.entity? i) := by
  cases hi : k.bindings[i]? with
  | none =>
    rw [call, hi] at hanswer
    cases hanswer
  | some b =>
    rcases ho : k.registry.collect c x b with ⟨refusal | a, r, ws⟩
    · rw [call_collect_of_error hi (by rw [ho])] at hanswer
      cases hanswer
    · have hset : (k.bindings.set i b.finished)[i]? = some b.finished :=
        List.getElem?_set_self (List.getElem?_eq_some_iff.1 hi).1
      rw [call_collect_of_ok hi ho]
      refine ⟨b.finished, hset, rfl, ?_⟩
      rw [entity?, hset]
      rfl

/-- After any calls over typed tables and keys the registry is in order. A call that is refused
changes nothing, unless collections are added and a question about one of them is not answered,
which does not happen under a total convention. When the collections of a binding were added, its
entity stays as it is, and every further attempt to add them is refused. -/
theorem run_atomic (c : Convention) (s : Settings) (schema : Schema) {calls : List Call}
    (hcalls : ∀ a ∈ calls, a.IsTyped) {k : Session} (hk : run c s schema {} calls = k) :
    k.IsInOrder ∧
    (∀ a refusal, (k.call c s schema a).answer = .error refusal →
      (∃ t, a = .bind t) ∨ (∀ fault, refusal ≠ .unanswered fault) ∨ c.IsTotal ∧ a.IsTyped →
      (k.call c s schema a).state = k) ∧
    ∀ i x, x.IsTyped → ∀ k₁ ws, k.call c s schema (.collect i x) = ⟨.ok (), k₁, ws⟩ →
      ∀ later : List Call, (∀ a ∈ later, a.IsTyped) → ∀ k₂, run c s schema k₁ later = k₂ →
        k₂.entity? i = k₁.entity? i ∧
        ∀ y, ∃ id, k₂.call c s schema (.collect i y) =
          .refused (.notRegistered id .collecting) k₂ := by
  subst hk
  have h : IsOrderly c s (run c s schema {} calls) := isOrderly_run isOrderly_empty hcalls
  refine ⟨h.isInOrder, ?_, ?_⟩
  · rintro a refusal hrefused (⟨t, rfl⟩ | hanswered | ⟨hc, ha⟩)
    · exact state_call_bind_of_error hrefused
    · exact state_call_of_answered hrefused hanswered
    · have hreadable : (run c s schema {} calls).IsReadable :=
        isReadable_run hc isOrderly_empty isReadable_empty hcalls
      exact state_call_of_isTotal hc h hreadable ha hrefused
  · rintro i x hx k₁ ws ho later hlater _ rfl
    have hanswer : ((run c s schema {} calls).call c s schema (.collect i x)).answer = .ok () := by
      rw [ho]
    have hstart := hasFinished_of_call hanswer
    have horderly := (changes_call c s schema _ (.collect i x)).isOrderly h hx
    rw [ho] at hstart horderly
    have hend := hasFinished_run schema horderly hstart hlater
    refine ⟨?_, hend.refused⟩
    obtain ⟨b, hb, _, he⟩ := hend
    rw [entity?, hb]
    exact he

end Session

def ReferenceIndex.ofShop : ReferenceIndex := ⟨[("customers", [.ofOrder])]⟩

/-- Two tables of a shop and two that are refused: one of them cannot become an entity, and the
other is outside and has the name of the first. -/
def Session.trial : List Call :=
  [.bind .customers, .bind .mixed, .bind .orders, .bind .formerCustomers]

/-- Tables that are refused leave no trace, and the collections of the customers are added once. -/
theorem Session.run_atomic_trial :
    (∀ a ∈ trial, a.IsTyped) ∧ ∃ k, run .plain {} .shop {} trial = k ∧ k.IsInOrder ∧
      k.registry.names = ["customers", "orders"] ∧
      (k.call .plain {} .shop (.bind .mixed)).answer =
        .error (.sharedName "mixed" { name := "mixed" } "id" "id" "id") ∧
      (k.call .plain {} .shop (.bind .mixed)).state = k ∧
      ∃ k₁ ws, k.call .plain {} .shop (.collect 0 .ofShop) = ⟨.ok (), k₁, ws⟩ ∧
        ((k₁.entity? 0).any fun e => e.collections.length = 1) ∧
        ∀ y, ∃ id, k₁.call .plain {} .shop (.collect 0 y) =
          .refused (.notRegistered id .collecting) k₁ := by
  have htyped : ∀ a ∈ trial, a.IsTyped := by decide
  obtain ⟨horder, hatomic, honce⟩ := run_atomic .plain {} .shop htyped rfl
  have hmixed : ((run .plain {} .shop {} trial).call .plain {} .shop (.bind .mixed)).answer =
      .error (.sharedName "mixed" { name := "mixed" } "id" "id" "id") := by
    decide +kernel
  have hadded : ((run .plain {} .shop {} trial).call .plain {} .shop
      (.collect 0 .ofShop)).answer = .ok () := by
    decide +kernel
  have hcollections : (((run .plain {} .shop {} trial).call .plain {} .shop
      (.collect 0 .ofShop)).state.entity? 0).any fun e => e.collections.length = 1 := by
    decide +kernel
  rcases ho : (run .plain {} .shop {} trial).call .plain {} .shop (.collect 0 .ofShop) with
    ⟨answer, k₁, ws⟩
  rw [ho] at hadded hcollections
  obtain rfl : answer = .ok () := hadded
  refine ⟨htyped, _, rfl, horder, by decide +kernel, hmixed,
    hatomic _ _ hmixed (.inl ⟨_, rfl⟩), k₁, ws, ho, hcollections, ?_⟩
  exact (honce 0 .ofShop (by decide) k₁ ws ho [] nofun k₁ rfl).2

end EntityMapping
