import EntityMapping.Proofs.Derivation.NameClash
import EntityMapping.Proofs.Derivation.Run

/-! # Which runs fail, and how

Over a typed schema and under a total convention a run is refused for two reasons only: a table
fails by itself, or its entity has the name of an earlier one. The first table of which one of both
holds decides, and the second pass never fails.
-/
namespace EntityMapping
open Column Document

variable {c : Convention} {s : Settings} {schema : Schema}

namespace Entity

theorem collectionProperty_gives (hc : c.IsTotal) {e : Entity} (he : e.HasPlainNames)
    (owner : Entity) {f : ForeignKey} (hf : f.IsTyped) :
    (collectionProperty c e owner f).Gives fun p =>
      p.name.isPlain ∧ p.kind = .collection ∧ Naming.isTaken e.names p.name = false := by
  obtain ⟨name, hname, hn⟩ := hc.collectionName f (owner.table.refersOnce f) hf
  obtain ⟨isInverse, hi, _⟩ := hc.isInverse f hf
  obtain ⟨isLazy, hl, _⟩ := hc.isLazy f hf
  have hfresh : Naming.freshName e.names name = .ok (Naming.fresh e.names name) :=
    Naming.freshName_eq_ok.2 ⟨he, hn.isPlain, rfl⟩
  rw [Answer.Gives, collectionProperty, hname]
  simp only [bind, Except.bind, hfresh, hi, hl]
  exact ⟨_, rfl, Naming.fresh_isPlain hn.isPlain, rfl, Naming.isTaken_fresh _ _⟩

theorem addCollection_reaches (hc : c.IsTotal) {e : Entity} (he : e.HasPlainNames)
    (owner : Entity) {f : ForeignKey} (hf : f.IsTyped) :
    (addCollection c e owner f).Reaches fun _ e' => e'.HasPlainNames := by
  obtain ⟨p, hp, hplain, hkind, hfree⟩ := collectionProperty_gives hc he owner hf
  exact ⟨p, e.extend [p], [], addCollection_eq_ok.2
    ⟨hp, add_eq_ok.2 ⟨fun _ => hkind, hfree, rfl⟩, rfl⟩, he.extend hplain⟩

theorem addCollections_reaches (hc : c.IsTotal) (r : Registry) {fs : List ForeignKey}
    (hfs : ∀ f ∈ fs, f.IsTyped) {e : Entity} (he : e.HasPlainNames) :
    (addCollections c r fs e).Reaches fun _ e' => e'.HasPlainNames := by
  induction fs generalizing e with
  | nil => exact Outcome.reaches_done he
  | cons f fs ih =>
    have hf := hfs f List.mem_cons_self
    have hrest : ∀ {e : Entity}, e.HasPlainNames →
        (addCollections c r fs e).Reaches fun _ e' => e'.HasPlainNames := fun he =>
      ih (fun f hm => hfs f (List.mem_cons_of_mem _ hm)) he
    rw [addCollections]
    apply Outcome.reaches_ask (hc.skipsCollection f hf)
    intro isSkipped _
    split
    · exact hrest he
    · split
      · have hw : (Warning.ownerUnbound f).IsTyped := hf
        exact Outcome.reaches_warn hw.message_isOk (hrest he)
      · rename_i owner _
        apply (addCollection_reaches hc he owner hf).andThen
        intro p e₁ he₁
        exact (hrest he₁).map fun _ _ h => h

theorem collect_cases (hc : c.IsTotal) (r : Registry) {x : ReferenceIndex} {e : Entity}
    (he : e.HasPlainNames) (hn : e.name.IsText) (hx : ∀ f ∈ x.leadingTo e.name, f.IsTyped) :
    (e.collect c x r).Reaches (fun _ e' => e'.HasPlainNames) ∨
      (e.collect c x r).answer = .error (.noIdentifier e.name e.table.id) := by
  rw [collect, asKey_of_isText hn, Outcome.ask_ok]
  split
  · exact .inl (Outcome.reaches_done he)
  · split
    · exact .inl (addCollections_reaches hc r hx he)
    · exact .inr rfl

end Entity

namespace Registry
variable {x : ReferenceIndex}

theorem collect_reaches (hc : c.IsTotal) {r : Registry} {b : TableBinding} {e : Entity}
    (hstage : b.stage = .registered) (hget : b.entity.bind r.get? = some e) (he : e.HasPlainNames)
    (hn : e.name.IsText) (hid : e.table.id.IsTyped) (hx : ∀ f ∈ x.leadingTo e.name, f.IsTyped) :
    (r.collect c x b).Reaches fun _ r' =>
      ∃ e' : Entity, e'.HasPlainNames ∧ (r' = r ∨ r' = r.update e') := by
  rw [collect_of_registered hstage hget]
  refine Outcome.Reaches.map ?_ fun _ _ h => h
  unfold addCollectionsOf
  dsimp only
  rcases Entity.collect_cases hc r he hn hx with ⟨ps, e', ws, h, hplain⟩ | h
  · rw [h]
    exact ⟨_, _, _, rfl, e', hplain, .inr rfl⟩
  · rw [h]
    have hw : (Warning.collectionsSkipped e.name e.table.id).IsTyped := hid
    exact Outcome.reaches_warn hw.message_isOk (Outcome.reaches_done ⟨e, he, .inl rfl⟩)

theorem collectAll_reaches (hc : c.IsTotal) {r : Registry} {ds es : List Entity} (hr : r.Sound)
    (hent : r.entities = ds ++ es.map Entity.freeze)
    (howned : ∀ e ∈ es, ∀ f ∈ x.leadingTo e.name, (r.ofTable? f.table).isSome)
    (hes : ∀ e ∈ es, e.HasPlainNames ∧ e.name.IsText ∧ e.table.id.IsTyped)
    (hx : ∀ n, ∀ f ∈ x.leadingTo n, f.IsTyped) :
    (collectAll c x (es.map .ofEntity) r).Reaches fun _ _ => True := by
  induction es generalizing r ds with
  | nil => exact Outcome.reaches_done trivial
  | cons e es ih =>
    obtain ⟨hplain, hn, hid⟩ := hes e List.mem_cons_self
    have hmem : e.freeze ∈ r.entities := by simp [hent]
    have hget : r.get? e.name = some e.freeze := hr.get?_name hmem
    obtain ⟨a, r₁, ws, ha, _⟩ := collect_reaches hc (b := .ofEntity e) rfl hget hplain hn hid
      (hx e.name)
    obtain ⟨e', _, hent₁, hagree⟩ := collect_eq_ok ha hr hent (howned e List.mem_cons_self)
    have howned₁ : ∀ d ∈ es, ∀ f ∈ x.leadingTo d.name, (r₁.ofTable? f.table).isSome := by
      intro d hd f hf
      exact hagree.isSome_ofTable? (howned d (List.mem_cons_of_mem _ hd) f hf)
    have hent₂ : r₁.entities = (ds ++ [e']) ++ es.map Entity.freeze := by simp [hent₁]
    have hrest := ih (hagree.sound hr) hent₂ howned₁ fun d hd => hes d (List.mem_cons_of_mem _ hd)
    rw [List.map_cons, collectAll, ha, Outcome.andThen_ok]
    exact (hrest.map fun _ _ h => h).after

/-- What is known of a registry after the first pass over some tables. -/
structure Holds (c : Convention) (s : Settings) (schema : Schema) (r : Registry)
    (ts : List Table) : Prop where
  sound : r.Sound
  tables_eq : r.entities.map Entity.table = ts
  named : ∀ e ∈ r.entities,
    entityName c s e.table.id = .ok e.name ∧ e.name.IsText ∧ e.HasPlainNames
  clear : ∀ t ∈ ts, t.IsClear c s schema

theorem holds_empty : Holds c s schema {} [] :=
  ⟨sound_empty, rfl, fun _ he => absurd he List.not_mem_nil,
    fun _ ht => absurd ht List.not_mem_nil⟩

theorem Holds.names_nodup {r : Registry} {ts : List Table} (h : r.Holds c s schema ts) :
    (ts.map fun t => entityName c s t.id).Nodup := by
  have hkeys : ((r.entities.map Entity.name).map Document.key).Nodup := by
    rw [List.map_map]
    exact h.sound.names_nodup
  have hnames : ((r.entities.map Entity.name).map Except.ok : List (Answer Name)).Nodup :=
    hkeys.of_map.map fun _ _ he => Except.ok.inj he
  rw [List.map_map] at hnames
  have hsame : r.entities.map ((fun t => entityName c s t.id) ∘ Entity.table) =
      r.entities.map (Except.ok ∘ Entity.name) := List.map_congr_left fun e he => (h.named e he).1
  rwa [← h.tables_eq, List.map_map, hsame]

theorem Holds.enter {r r' : Registry} {ts : List Table} (h : r.Holds c s schema ts) {t : Table}
    {e : Entity} (he : IsCompleted c s schema t e) (hn : e.name.IsText) (hp : e.HasPlainNames)
    (ht : t.IsClear c s schema) (hid : t.id.key ∉ ts.map fun u => u.id.key)
    (henter : r.enter e = .ok r') : r'.Holds c s schema (ts ++ [t]) := by
  have htable := he.table_eq
  have hent : r'.entities = r.entities ++ [e.freeze] := by
    obtain ⟨_, rfl⟩ := enter_eq_ok.1 henter
    rfl
  refine ⟨?_, ?_, ?_, ?_⟩
  · apply sound_enter h.sound henter
    rw [htable]
    rwa [← h.tables_eq, List.map_map] at hid
  · rw [hent, List.map_append, h.tables_eq, List.map_singleton, Entity.freeze_table, htable]
  · intro d hd
    rw [hent, List.mem_append, List.mem_singleton] at hd
    rcases hd with hd | rfl
    · exact h.named d hd
    · exact ⟨htable ▸ he.name_eq, hn, hp⟩
  · intro u hu
    rcases List.mem_append.1 hu with hu | hu
    · exact h.clear u hu
    · rw [List.mem_singleton.1 hu]
      exact ht

/-- A typed table fails by itself, or it is clear and its entity is entered unless there is one of
its name already. -/
theorem bind_cases (hc : c.IsTotal) (r : Registry) {t : Table} (ht : t.IsTyped) :
    (∃ refusal, t.FailsWith c s schema refusal ∧
      (r.bind c s schema t).answer = .error refusal) ∨
    t.IsClear c s schema ∧ ∃ e, IsCompleted c s schema t e ∧ e.name.IsText ∧ e.HasPlainNames ∧
      ((∃ r' ws, r.enter e = .ok r' ∧ r.bind c s schema t = ⟨.ok (.ofEntity e), r', ws⟩) ∨
        ∃ d ∈ r.entities, d.name.key = e.name.key ∧
          (r.bind c s schema t).answer = .error (.duplicateName e.name t.id d.table.id)) := by
  obtain ⟨b, hb, hready⟩ := Entity.blank_gives (s := s) hc ht
  rw [bind_eq, hb, Outcome.ask_ok]
  rcases Draft.complete_cases hc hb hready with
    ⟨refusal, hfails, ha⟩ | ⟨hclear, _, d, ws, ho, hd⟩
  · refine .inl ⟨refusal, hfails, ?_⟩
    simp only [ha]
  · have hcompleted : IsCompleted c s schema t d.entity := Draft.complete_eq_ok hb ho
    have hname : d.entity.name.IsText :=
      (hc.className _ (ht.1.normalize s)).of_eq_ok hcompleted.name_eq
    refine .inr ⟨hclear, d.entity, hcompleted, hname, hd.names, ?_⟩
    simp only [ho]
    cases hg : r.get? d.entity.name with
    | none =>
      have henter := enter_eq_ok.2 ⟨get?_eq_none_iff.1 hg, rfl⟩
      refine .inl ⟨_, ws, henter, ?_⟩
      rw [henter, TableBinding.ofEntity, hcompleted.table_eq, hcompleted.tableId_eq]
    | some e =>
      obtain ⟨he, hkey⟩ := mem_of_get?_eq_some hg
      refine .inr ⟨e, he, hkey, ?_⟩
      rw [enter_eq_error hg, hcompleted.table_eq]

end Registry

/-- The table fails by itself, in one way or the other. -/
def Table.Fails (c : Convention) (s : Settings) (schema : Schema) (t : Table) : Prop :=
  ∃ r, t.FailsWith c s schema r

theorem Table.IsClear.not_fails {t : Table} (h : t.IsClear c s schema) :
    ¬ t.Fails c s schema := by
  rintro ⟨r, hf⟩
  exact h.not_failsWith hf

theorem Table.isClear_of_not_fails (hc : c.IsTotal) {t : Table} (ht : t.IsTyped)
    (h : ¬ t.Fails c s schema) : t.IsClear c s schema := by
  obtain ⟨b, hb, hready⟩ := Entity.blank_gives (s := s) hc ht
  rcases Draft.complete_cases hc hb hready with ⟨r, hf, _⟩ | ⟨hclear, _⟩
  · exact absurd ⟨r, hf⟩ h
  · exact hclear

/-- A refusal over a table whose entity would have the name of that of an earlier one. -/
def Table.RepeatsName (c : Convention) (s : Settings) (before : List Table) (t : Table)
    (r : Refusal) : Prop :=
  ∃ u ∈ before, ∃ n, entityName c s u.id = .ok n ∧ entityName c s t.id = .ok n ∧
    r = .duplicateName n t.id u.id

def Table.RefusedAfter (c : Convention) (s : Settings) (schema : Schema) (before : List Table)
    (t : Table) (r : Refusal) : Prop :=
  t.FailsWith c s schema r ∨ ¬ t.Fails c s schema ∧ t.RepeatsName c s before r

structure Passes (c : Convention) (s : Settings) (schema : Schema) (ts : List Table) : Prop where
  none_fails : ∀ t ∈ ts, ¬ t.Fails c s schema
  names_nodup : (ts.map fun t => entityName c s t.id).Nodup

/-- The refusal is that of the first table that does not pass. -/
def FailsFirst (c : Convention) (s : Settings) (schema : Schema) (ts : List Table)
    (r : Refusal) : Prop :=
  ∃ before t after, ts = before ++ t :: after ∧ Passes c s schema before ∧
    t.RefusedAfter c s schema before r

theorem Passes.of_prefix {ts us : List Table} (h : Passes c s schema us) (hts : ts <+: us) :
    Passes c s schema ts :=
  ⟨fun t ht => h.none_fails t (hts.subset ht), h.names_nodup.sublist (hts.sublist.map _)⟩

theorem passes_iff {ts : List Table} : Passes c s schema ts ↔
    ¬ ((∃ t ∈ ts, t.Fails c s schema) ∨ ¬ (ts.map fun t => entityName c s t.id).Nodup) := by
  constructor
  · rintro h (⟨t, ht, hf⟩ | hn)
    · exact h.none_fails t ht hf
    · exact hn h.names_nodup
  · intro h
    exact ⟨fun t ht hf => h (.inl ⟨t, ht, hf⟩), not_not.1 fun hn => h (.inr hn)⟩

namespace Table.RefusedAfter
variable {before : List Table} {t : Table} {r r' : Refusal}

theorem not_passes (h : t.RefusedAfter c s schema before r) :
    ¬ Passes c s schema (before ++ [t]) := by
  intro hp
  rcases h with hf | ⟨_, u, hu, n, hun, htn, _⟩
  · exact hp.none_fails t (by simp) ⟨r, hf⟩
  · have hrepeat : FirstRepeat (fun t => entityName c s t.id) (before ++ [t]) u t :=
      ⟨before, [], rfl, hp.names_nodup.sublist ((List.sublist_append_left before [t]).map _), hu,
        hun.trans htn.symm⟩
    exact hrepeat.not_nodup hp.names_nodup

theorem unique (hb : (before.map fun t => entityName c s t.id).Nodup)
    (h : t.RefusedAfter c s schema before r) (h' : t.RefusedAfter c s schema before r') :
    r = r' := by
  rcases h with h | ⟨hn, u, hu, n, hun, htn, rfl⟩ <;>
    rcases h' with h' | ⟨hn', u', hu', n', hun', htn', rfl⟩
  · exact h.unique h'
  · exact absurd ⟨r, h⟩ hn'
  · exact absurd ⟨r', h'⟩ hn
  · obtain rfl : n = n' := Except.ok.inj (htn.symm.trans htn')
    rw [List.inj_on_of_nodup_map hb hu hu' (hun.trans hun'.symm)]

end Table.RefusedAfter

namespace FailsFirst
variable {ts : List Table} {r r' : Refusal}

theorem not_passes (h : FailsFirst c s schema ts r) : ¬ Passes c s schema ts := by
  obtain ⟨before, t, after, rfl, _, ht⟩ := h
  intro hp
  exact ht.not_passes (hp.of_prefix ⟨after, by simp⟩)

theorem length_le {before after before' after' : List Table} {t t' : Table}
    (h : before ++ t :: after = before' ++ t' :: after')
    (ht : t.RefusedAfter c s schema before r) (hp : Passes c s schema before') :
    before'.length ≤ before.length := by
  by_contra hlt
  have hpre := append_singleton_prefix h (Nat.lt_of_not_le hlt)
  exact ht.not_passes (hp.of_prefix hpre)

theorem unique (h : FailsFirst c s schema ts r) (h' : FailsFirst c s schema ts r') : r = r' := by
  obtain ⟨before, t, after, rfl, hp, ht⟩ := h
  obtain ⟨before', t', after', heq, hp', ht'⟩ := h'
  have hlength : before.length = before'.length :=
    Nat.le_antisymm (length_le heq.symm ht' hp) (length_le heq ht hp')
  obtain ⟨rfl, hrest⟩ := List.append_inj heq hlength
  obtain ⟨rfl, _⟩ := List.cons.inj hrest
  exact ht.unique hp.names_nodup ht'

/-- The refusal is over two columns, with the name that they share, or over two tables. -/
theorem eq_sharedName_or_duplicateName (hc : c.IsTotal) (hts : ∀ t ∈ ts, t.IsTyped)
    (h : FailsFirst c s schema ts r) :
    (∃ entity table first second name,
      r = .sharedName entity table first second (.text name)) ∨
    ∃ entity table existing, r = .duplicateName entity table existing := by
  obtain ⟨before, t, after, rfl, _, hf | ⟨_, u, _, n, _, _, rfl⟩⟩ := h
  · exact .inl (hf.eq_sharedName hc (hts t (by simp)))
  · exact .inr ⟨_, _, _, rfl⟩

end FailsFirst

namespace ReferenceIndex

theorem ofSchema_isOk (hc : c.IsTotal) (hs : schema.IsTyped) :
    ∃ x, ReferenceIndex.ofSchema c s schema = .ok x := by
  refine ofSchema_isOk_iff.2 fun f hf _ => ?_
  obtain ⟨n, hn, htext⟩ := hc.className _ ((hs.foreignKey hf).2.1.normalize s)
  exact ⟨n, hn, htext.isPlain⟩

end ReferenceIndex

namespace Registry

theorem Holds.passes {r : Registry} {ts : List Table} (h : r.Holds c s schema ts) :
    Passes c s schema ts :=
  ⟨fun t ht => (h.clear t ht).not_fails, h.names_nodup⟩

/-- The first pass stops at the first table that does not pass, or there is none. -/
theorem bindAll_cases (hc : c.IsTotal) {before ts : List Table} (hts : ∀ t ∈ ts, t.IsTyped)
    (hids : ((before ++ ts).map fun t => t.id.key).Nodup) {r : Registry}
    (h : r.Holds c s schema before) :
    (∃ refusal, FailsFirst c s schema (before ++ ts) refusal ∧
      (bindAll c s schema ts r).answer = .error refusal) ∨
    (bindAll c s schema ts r).Reaches fun _ r' => r'.Holds c s schema (before ++ ts) := by
  induction ts generalizing before r with
  | nil => exact .inr (Outcome.reaches_done (by simpa using h))
  | cons t ts ih =>
    rw [bindAll]
    rcases bind_cases hc r (hts t List.mem_cons_self) with ⟨refusal, hfails, ha⟩ |
      ⟨hclear, e, he, hn, hplain, ⟨r', ws, henter, hb⟩ | ⟨d, hd, hkey, ha⟩⟩
    · exact .inl ⟨refusal, ⟨before, t, ts, rfl, h.passes, .inl hfails⟩,
        Outcome.answer_andThen_eq_error.2 (.inl ha)⟩
    · have hid : t.id.key ∉ before.map fun u => u.id.key := by
        rw [List.map_append, List.map_cons] at hids
        intro hm
        exact (List.nodup_append.1 hids).2.2 _ hm _ List.mem_cons_self rfl
      have hids' : (((before ++ [t]) ++ ts).map fun t => t.id.key).Nodup := by simpa using hids
      have hrest := ih (fun u hu => hts u (List.mem_cons_of_mem _ hu)) hids'
        (h.enter he hn hplain hclear hid henter)
      rw [List.append_assoc, List.singleton_append] at hrest
      rw [hb, Outcome.andThen_ok]
      rcases hrest with ⟨refusal, hfirst, ha⟩ | hreach
      · exact .inl ⟨refusal, hfirst, Outcome.answer_map_eq_error.2 ha⟩
      · exact .inr (hreach.map fun _ _ h' => h').after
    · obtain ⟨hdname, hdtext, _⟩ := h.named d hd
      have hsame : d.name = e.name := hdtext.eq_of_key hkey
      have hbefore : d.table ∈ before := h.tables_eq ▸ List.mem_map_of_mem hd
      refine .inl ⟨_, ⟨before, t, ts, rfl, h.passes, .inr ⟨hclear.not_fails, d.table, hbefore,
        e.name, ?_, he.name_eq, rfl⟩⟩, Outcome.answer_andThen_eq_error.2 (.inl ha)⟩
      rw [hdname, hsame]

theorem collectAll_bound_reaches (hc : c.IsTotal) (hs : schema.IsTyped) {x : ReferenceIndex}
    {bs : List TableBinding} {r : Registry} {ws : List Warning}
    (hx : ReferenceIndex.ofSchema c s schema = .ok x)
    (hbind : bindAll c s schema schema.tables {} = ⟨.ok bs, r, ws⟩) :
    (collectAll c x bs r).Reaches fun _ _ => True := by
  have hr : r.Holds c s schema schema.tables := by
    rcases bindAll_cases hc hs (by simpa using schema.ids_nodup)
      (holds_empty (c := c) (s := s)) with ⟨_, _, ha⟩ | ⟨_, _, _, ho, hr⟩
    · rw [hbind] at ha
      cases ha
    · rw [hbind] at ho
      cases ho
      exact hr
  obtain ⟨es, _, rfl, hent, hsound, htables⟩ := bindAll_tables_eq_ok hbind
  have hes : ∀ e ∈ es, e.HasPlainNames ∧ e.name.IsText ∧ e.table.id.IsTyped := by
    intro e he
    have hmem : e.freeze ∈ r.entities := by simpa [hent] using ⟨e, he, rfl⟩
    have htable : e.table ∈ schema.tables := htables ▸ List.mem_map.2 ⟨_, hmem, rfl⟩
    obtain ⟨_, hn, hplain⟩ := hr.named _ hmem
    exact ⟨hplain, hn, (hs _ htable).1⟩
  have hkeys : ∀ n, ∀ f ∈ x.leadingTo n, f.IsTyped := fun _ _ hf =>
    hs.foreignKey (mem_foreignKeys_of_leadingTo hx hf)
  have howned := isSome_ofTable?_of_leadingTo hx hsound htables
  rw [← List.nil_append (es.map Entity.freeze)] at hent
  exact collectAll_reaches hc hsound hent (fun e _ => howned e.name) hes hkeys

/-- A run ends with the refusal of the first table that does not pass, or all tables pass and it
succeeds. -/
theorem derive_cases (hc : c.IsTotal) (hs : schema.IsTyped) :
    (∃ refusal, FailsFirst c s schema schema.tables refusal ∧
      (derive c s schema).answer = .error refusal) ∨
    Passes c s schema schema.tables ∧ (derive c s schema).Reaches fun _ _ => True := by
  obtain ⟨x, hx⟩ := ReferenceIndex.ofSchema_isOk (s := s) hc hs
  rw [derive, hx, Outcome.ask_ok]
  rcases bindAll_cases hc hs (by simpa using schema.ids_nodup) (holds_empty (c := c) (s := s)) with
    ⟨refusal, hfirst, ha⟩ | ⟨bs, r, ws, hbind, hr⟩
  · exact .inl ⟨refusal, hfirst, Outcome.answer_andThen_eq_error.2 (.inl ha)⟩
  · rw [hbind, Outcome.andThen_ok]
    exact .inr ⟨hr.passes, (collectAll_bound_reaches hc hs hx hbind).after⟩

/-- A run succeeds when no table fails by itself and all entities have different names. -/
theorem ofSchema_isOk_iff (hc : c.IsTotal) (hs : schema.IsTyped) :
    (∃ r, ofSchema c s schema = .ok r) ↔ (∀ t ∈ schema.tables, t.IsClear c s schema) ∧
      (schema.tables.map fun t => entityName c s t.id).Nodup := by
  have hanswer : (∃ r, ofSchema c s schema = .ok r) ↔
      ∃ bs, (derive c s schema).answer = .ok bs := by
    rw [ofSchema]
    cases (derive c s schema).answer <;> simp [Except.map]
  rw [hanswer]
  rcases derive_cases hc hs with ⟨refusal, hf, ha⟩ | ⟨hp, bs, _, _, ha, _⟩
  · refine iff_of_false (by simp [ha]) fun h => hf.not_passes ⟨fun t ht => ?_, h.2⟩
    exact (h.1 t ht).not_fails
  · refine iff_of_true ⟨bs, by rw [ha]⟩ ⟨fun t ht => ?_, hp.names_nodup⟩
    exact Table.isClear_of_not_fails hc (hs t ht) (hp.none_fails t ht)

/-- A run hands out nothing but the refusal of the first table that does not pass. There is such a
table when one fails by itself or two have one entity name, and it is refused for that alone: no
table is held up at a stage, and no column is claimed twice. -/
theorem ofSchema_refuses (hc : c.IsTotal) (hs : schema.IsTyped) :
    ((∃ r, ofSchema c s schema = .error r) ↔ (∃ t ∈ schema.tables, t.Fails c s schema) ∨
      ¬ (schema.tables.map fun t => entityName c s t.id).Nodup) ∧
    (∀ r, ofSchema c s schema = .error r ↔ FailsFirst c s schema schema.tables r) ∧
    ∀ r, ofSchema c s schema = .error r →
      (∃ entity table first second name,
        r = .sharedName entity table first second (.text name)) ∨
      ∃ entity table existing, r = .duplicateName entity table existing := by
  have hanswer : ∀ r, ofSchema c s schema = .error r ↔ (derive c s schema).answer = .error r := by
    intro r
    rw [ofSchema]
    cases (derive c s schema).answer <;> simp [Except.map]
  have hfirst : ∀ r, ofSchema c s schema = .error r ↔
      FailsFirst c s schema schema.tables r := by
    intro r
    rw [hanswer]
    rcases derive_cases hc hs with ⟨refusal, hf, ha⟩ | ⟨hp, _, _, _, ha, _⟩
    · rw [ha]
      exact ⟨fun h => Except.error.inj h ▸ hf, fun h => congrArg _ (hf.unique h)⟩
    · rw [ha]
      exact iff_of_false (by simp) fun h => h.not_passes hp
  refine ⟨?_, hfirst, fun r h => ((hfirst r).1 h).eq_sharedName_or_duplicateName hc hs⟩
  rw [← not_iff_not, ← passes_iff]
  constructor
  · intro hnone
    rcases derive_cases hc hs with ⟨refusal, _, ha⟩ | ⟨hp, _⟩
    · exact absurd ⟨refusal, (hanswer refusal).2 ha⟩ hnone
    · exact hp
  · rintro hp ⟨r, h⟩
    exact ((hfirst r).1 h).not_passes hp

end Registry

def Table.formerCustomers : Table :=
  { Table.customers with
    id := { name := "customers", schema := "former" }
    foreign_owner := by decide }

/-- The third table lists a key column twice, and is not reached. -/
def Table.mixed : Table :=
  { Table.customers with
    id := { name := "mixed" }
    primaryKey := some { columns := [{ name := "id" }, { name := "id" }], columns_ne := by simp }
    key_columns := by decide
    foreign_owner := by decide }

def Schema.archive : Schema where
  tables := [.customers, .formerCustomers, .mixed]
  ids_plain := by decide
  ids_nodup := by decide
  targets_plain := by decide
  targets_known := by decide

/-- The second table has the name of the first, and nothing is said of the third. -/
theorem Registry.ofSchema_refuses_archive :
    (ofSchema .plain {} .archive = .error (.duplicateName "customers"
      { name := "customers", schema := "former" } { name := "customers" })) ∧
    ((∃ r, ofSchema .plain {} .archive = .error r) ↔
      (∃ t ∈ Schema.archive.tables, t.Fails .plain {} .archive) ∨
        ¬ (Schema.archive.tables.map fun t => entityName .plain {} t.id).Nodup) ∧
    (∀ r, ofSchema .plain {} .archive = .error r ↔
      FailsFirst .plain {} .archive Schema.archive.tables r) ∧
    ∀ r, ofSchema .plain {} .archive = .error r →
      (∃ entity table first second name,
        r = .sharedName entity table first second (.text name)) ∨
      ∃ entity table existing, r = .duplicateName entity table existing :=
  ⟨by decide, ofSchema_refuses Convention.plain_isTotal (by decide)⟩

end EntityMapping
