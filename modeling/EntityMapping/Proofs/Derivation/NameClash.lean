import EntityMapping.Proofs.Derivation.FirstPass
import EntityMapping.Proofs.Derivation.Progress
import EntityMapping.Proofs.FirstRepeat

/-! # Where a table is refused

Two steps over the columns of a table can be refused: the composite identifier and the scalars, each
at the first column whose property would have the name of an earlier one. Nothing else goes wrong,
since a claimed key column has a namesake among the earlier ones.
-/
namespace EntityMapping
open Column Document

variable {c : Convention} {s : Settings} {schema : Schema} {id : TableId}

def columnName (c : Convention) (id : TableId) (col : Column) : Answer Name :=
  c.propertyName id col.name

/-- The columns that are done stand under the names of their properties. -/
def NamesDone (c : Convention) (id : TableId) (done : Named Column) : Prop :=
  ∀ x ∈ done, x.2.name.IsText ∧ x.1.IsText ∧ columnName c id x.2 = .ok x.1

section
variable {done : Named Column} {col : Column} {name : Name}

theorem NamesDone.append (hdone : NamesDone c id done) (hcol : col.IsTyped) (hn : name.IsText)
    (hname : columnName c id col = .ok name) : NamesDone c id (done ++ [(name, col)]) := by
  intro x hx
  rcases List.mem_append.1 hx with hx | hx
  · exact hdone x hx
  · rw [List.mem_singleton.1 hx]
    exact ⟨hcol.1, hn, hname⟩

/-- A column either has a namesake among those done or a name of its own. -/
theorem NamesDone.namesake? (hdone : NamesDone c id done) (hn : name.IsText)
    (hname : columnName c id col = .ok name) :
    (∃ d ∈ done.map Prod.snd, columnName c id d = columnName c id col ∧
      namesake? done name = .ok (some d)) ∨
    columnName c id col ∉ (done.map Prod.snd).map (columnName c id) ∧
      namesake? done name = .ok none := by
  have hlook : EntityMapping.namesake? done name = .ok (done.get? name) :=
    namesake?_eq_ok.2 ⟨hn.isPlain, rfl⟩
  rw [hlook, hname]
  cases hf : done.find? fun x => x.1.same name with
  | some x =>
    left
    have hx := List.mem_of_find?_eq_some hf
    have hsame := List.find?_some hf
    obtain ⟨_, htext, hx'⟩ := hdone x hx
    have hkey : x.1 = name := htext.eq_of_key (Document.same_iff.1 hsame)
    exact ⟨x.2, List.mem_map_of_mem hx, by rw [hx', hkey], by simp [Named.get?, hf]⟩
  | none =>
    right
    refine ⟨?_, by simp [Named.get?, hf]⟩
    intro hm
    obtain ⟨_, hd, he⟩ := List.mem_map.1 hm
    obtain ⟨x, hx, rfl⟩ := List.mem_map.1 hd
    rw [(hdone x hx).2.2] at he
    have hnot := List.find?_eq_none.1 hf x hx
    rw [Except.ok.inj he] at hnot
    simp at hnot

end

/-- The step is refused because of the first column of a list whose name is that of an earlier one,
or all names are different and it succeeds. -/
def Outcome.ClashesAt {σ α : Type} (o : Outcome σ α) (c : Convention) (e : Entity)
    (cols : List Column) (P : α → σ → Prop) : Prop :=
  (∃ a b n, FirstRepeat (columnName c e.tableId) cols a b ∧ columnName c e.tableId b = .ok n ∧
    o.answer = .error (.sharedName e.name e.table.id a.name b.name n)) ∨
  (cols.map (columnName c e.tableId)).Nodup ∧ o.Reaches P

namespace Outcome.ClashesAt
variable {σ α β : Type} {o : Outcome σ α} {e : Entity} {cols : List Column} {P : α → σ → Prop}
  {Q : β → σ → Prop}

theorem map {f : α → β} (h : o.ClashesAt c e cols P) (hq : ∀ a t, P a t → Q (f a) t) :
    (o.map f).ClashesAt c e cols Q := by
  rcases h with ⟨a, b, n, hr, hn, ho⟩ | ⟨hn, ho⟩
  · exact .inl ⟨a, b, n, hr, hn, answer_map_eq_error.2 ho⟩
  · exact .inr ⟨hn, ho.map hq⟩

theorem after {ws : List Warning} (h : o.ClashesAt c e cols P) :
    (o.after ws).ClashesAt c e cols P := by
  rcases h with ⟨a, b, n, hr, hn, ho⟩ | ⟨hn, ho⟩
  · exact .inl ⟨a, b, n, hr, hn, ho⟩
  · exact .inr ⟨hn, ho.after⟩

theorem andThen {next : α → σ → Outcome σ β} (h : o.ClashesAt c e cols P)
    (hn : ∀ a t, P a t → (next a t).Reaches Q) : (o.andThen next).ClashesAt c e cols Q := by
  rcases h with ⟨a, b, n, hr, hname, ho⟩ | ⟨hnodup, ho⟩
  · exact .inl ⟨a, b, n, hr, hname, answer_andThen_eq_error.2 (.inl ho)⟩
  · exact .inr ⟨hnodup, ho.andThen hn⟩

theorem of_andThen {next : α → σ → Outcome σ β} {a : α} {t : σ} {ws : List Warning}
    (ho : o = ⟨.ok a, t, ws⟩) (h : (next a t).ClashesAt c e cols Q) :
    (o.andThen next).ClashesAt c e cols Q := by
  rw [ho, andThen_ok]
  exact h.after

end Outcome.ClashesAt

namespace Draft

theorem claimKey_of_free (hc : c.IsTotal) {e : Entity} (hid : e.tableId.IsTyped) {col : Column}
    (hcol : col.IsTyped) (name : Name) {claims : Claims} (hfree : claims.has col = false) :
    ∃ p, p.name = name ∧ claimKey c e name col claims = ⟨.ok p, claims.insert col, []⟩ := by
  obtain ⟨p, hp, hn, _⟩ := columnProperty_gives hc hid hcol name .scalar true
  exact ⟨p, hn, claimKey_eq_ok.2 ⟨hp, by simp [Claims.claim?, hfree], rfl⟩⟩

/-- The claims hold the columns done, so that a column that is claimed has a namesake. -/
theorem keyProperties_clashesAt (hc : c.IsTotal) {e : Entity} (hid : e.tableId.IsTyped)
    {cols : List Column} (hcols : ∀ col ∈ cols, col.IsTyped) {done : Named Column}
    {claims : Claims} (hdone : NamesDone c e.tableId done)
    (hclaims : claims.columns = done.map Prod.snd)
    (hnew : ((done.map Prod.snd).map (columnName c e.tableId)).Nodup) :
    (keyProperties c e cols done claims).ClashesAt c e (done.map Prod.snd ++ cols)
      fun ps _ => ∀ p ∈ ps, p.name.isPlain := by
  induction cols generalizing done claims with
  | nil => exact .inr ⟨by simpa using hnew, Outcome.reaches_done (by simp)⟩
  | cons col cols ih =>
    have hcol := hcols col List.mem_cons_self
    obtain ⟨name, hname, hn⟩ := hc.propertyName _ _ hid hcol.1
    rw [keyProperties, hname, Outcome.ask_ok]
    rcases hdone.namesake? hn hname with ⟨d, hd, hsame, hlook⟩ | ⟨hfresh, hlook⟩
    · left
      refine ⟨d, col, name, ⟨_, cols, rfl, hnew, hd, hsame⟩, hname, ?_⟩
      rw [hlook]
      rfl
    · have hfree : claims.has col = false := by
        rw [Claims.has_eq_false_iff, hclaims]
        intro hm
        obtain ⟨d, hd, hkey⟩ := List.mem_map.1 hm
        obtain ⟨x, hx, rfl⟩ := List.mem_map.1 hd
        have hnames : x.2.name = col.name := (hdone x hx).1.eq_of_key hkey
        exact hfresh (List.mem_map.2 ⟨x.2, hd, by rw [columnName, columnName, hnames]⟩)
      obtain ⟨p, hpn, hp⟩ := claimKey_of_free hc hid hcol name hfree
      have hrest := ih (fun col hcol => hcols col (List.mem_cons_of_mem _ hcol))
        (hdone.append hcol hn hname)
        (by rw [Claims.columns_insert_of_free hfree, hclaims]; simp)
        (by simpa using nodup_append_singleton hnew hfresh)
      have hplain : p.name.isPlain := hpn ▸ hn.isPlain
      rw [List.map_append, List.map_singleton, List.append_assoc, List.singleton_append] at hrest
      rw [hlook, Outcome.ask_ok]
      simp only [hp, Outcome.andThen_ok]
      refine (hrest.map fun ps _ hps => ?_).after
      exact List.forall_mem_cons.2 ⟨hplain, hps⟩

theorem prefer_gives {given otherwise : Answer Name} (hg : given.Gives IsOptionalText)
    (ho : otherwise.Gives IsText) : (prefer given otherwise).Gives IsText := by
  refine hg.bind fun name hn => ?_
  split
  · rename_i ht
    exact Answer.gives_pure (hn.isText ht)
  · exact ho

theorem compositeIdentifier_gives (hc : c.IsTotal) {e : Entity} (hid : e.tableId.IsTyped)
    {ps : List Property} (hps : ∀ p ∈ ps, p.name.isPlain) :
    (compositeIdentifier c s e ps).Gives fun i => ∀ n ∈ i.names, n.isPlain := by
  unfold compositeIdentifier
  split
  · refine Answer.gives_pure fun n hn => ?_
    obtain ⟨p, hp, rfl⟩ := List.mem_map.1 hn
    exact hps p hp
  · refine (hc.compositeName _ hid).bind fun className _ => ?_
    have hname := prefer_gives (hc.identifierName _ hid) ⟨_, rfl, isText_text "id"⟩
    refine hname.bind fun name hn => ?_
    refine Answer.gives_pure fun n hmem => ?_
    rw [List.mem_singleton.1 hmem]
    exact hn.isPlain

theorem identifierOf_clashesAt (hc : c.IsTotal) {e : Entity} (hid : e.tableId.IsTyped)
    {k : PrimaryKey} (hcols : ∀ col ∈ k.columns, col.IsTyped) :
    (identifierOf c s e k {}).ClashesAt c e k.columns fun i _ => ∀ n ∈ i.names, n.isPlain := by
  unfold identifierOf
  split
  · rename_i col hcol
    have hcol' : col.IsTyped := hcols col (by simp [hcol])
    have hfree : Claims.has {} col = false := rfl
    refine .inr ⟨by simp [hcol], ?_⟩
    apply Outcome.reaches_ask
      (prefer_gives (hc.identifierName _ hid) (hc.propertyName _ _ hid hcol'.1))
    intro name hname
    obtain ⟨p, _, hp⟩ := claimKey_of_free hc hid hcol' name hfree
    simp only [hp, Outcome.andThen_ok]
    apply Outcome.Reaches.after
    apply Outcome.reaches_ask
      (prefer_gives (hc.generator _ hid) ⟨defaultGenerator, rfl, isText_text "assigned"⟩)
    intro generator _
    refine Outcome.reaches_done fun n hn => ?_
    rw [List.mem_singleton.1 hn]
    exact hname.isPlain
  · have hdone : NamesDone c e.tableId [] := fun _ hx => absurd hx List.not_mem_nil
    apply (keyProperties_clashesAt hc hid hcols hdone rfl List.nodup_nil).andThen
    intro ps claims hps
    apply Outcome.reaches_ask (compositeIdentifier_gives hc hid hps)
    intro i hi
    exact Outcome.reaches_done hi

theorem identify_clashesAt (hc : c.IsTotal) {e : Entity} (he : e.IsReady) :
    (identify c s ⟨e, {}⟩).ClashesAt c e e.table.keyColumns fun _ d => d.entity.IsReady := by
  unfold identify
  cases hk : e.table.primaryKey with
  | none =>
    refine .inr ⟨by simp [Table.keyColumns, hk], ?_⟩
    have hw : (Warning.noPrimaryKey e.table.id e.name).IsTyped := he.table.1
    apply Outcome.reaches_warn hw.message_isOk
    exact Outcome.reaches_done (he.withIdentifier fun _ hn => absurd hn List.not_mem_nil)
  | some k =>
    have hkey : e.table.keyColumns = k.columns := by simp [Table.keyColumns, hk]
    simp only [hkey]
    rcases identifierOf_clashesAt hc he.tableId (hkey ▸ he.table.2.2.1) with
      ⟨a, b, n, hr, hn, ho⟩ | ⟨hnodup, i, claims, ws, ho, hi⟩
    · exact .inl ⟨a, b, n, hr, hn, by rw [ho]⟩
    · refine .inr ⟨hnodup, i, ⟨{ e with identifier := i }, claims⟩, ws, by rw [ho], ?_⟩
      exact he.withIdentifier hi

theorem identify_isReady (hc : c.IsTotal) {t : Table} (ht : t.IsTyped) {b : Entity} {d : Draft}
    {i : Identifier} {ws : List Warning} (hb : Entity.blank c s t = .ok b)
    (h : identify c s ⟨b, {}⟩ = ⟨.ok i, d, ws⟩) : d.entity.IsReady := by
  have hready : b.IsReady := (Entity.blank_gives hc ht).of_eq_ok hb
  rcases identify_clashesAt (s := s) hc hready with ⟨_, _, _, _, _, herr⟩ | ⟨_, _, _, _, hok, hd⟩
  · rw [h] at herr
    cases herr
  · cases h.symm.trans hok
    exact hd

theorem addScalars_clashesAt (hc : c.IsTotal) {cols : List Column}
    (hcols : ∀ col ∈ cols, col.IsTyped) (hkeys : (nameKeys cols).Nodup) {d : Draft}
    (hd : d.entity.IsReady) {done : Named Column} (hdone : NamesDone c d.entity.tableId done)
    (hnew : ((done.map Prod.snd).map (columnName c d.entity.tableId)).Nodup) :
    (addScalars c cols done d).ClashesAt c d.entity
      (done.map Prod.snd ++ freeColumns d.claims cols) fun _ d' => d'.entity.IsReady := by
  induction cols generalizing done d with
  | nil => exact .inr ⟨by simpa [freeColumns] using hnew, Outcome.reaches_done hd⟩
  | cons col cols ih =>
    rw [nameKeys_cons, List.nodup_cons] at hkeys
    have hcol := hcols col List.mem_cons_self
    have hcols' : ∀ col ∈ cols, col.IsTyped := fun col hm => hcols col (List.mem_cons_of_mem _ hm)
    cases hf : d.claims.has col with
    | true =>
      have hfree : freeColumns d.claims (col :: cols) = freeColumns d.claims cols := by
        simp [freeColumns, hf]
      rw [addScalars, if_pos hf, hfree]
      exact ih hcols' hkeys.2 hd hdone hnew
    | false =>
      have hfree : freeColumns d.claims (col :: cols) = col :: freeColumns d.claims cols := by
        simp [freeColumns, hf]
      obtain ⟨name, hname, hn⟩ := hc.propertyName _ _ hd.tableId hcol.1
      rw [addScalars, if_neg (by simp [hf]), hname, Outcome.ask_ok, hfree]
      rcases hdone.namesake? hn hname with ⟨a, ha, hsame, hlook⟩ | ⟨hfresh, hlook⟩
      · left
        refine ⟨a, col, name, ⟨_, _, rfl, hnew, ha, hsame⟩, hname, ?_⟩
        rw [hlook]
        rfl
      · obtain ⟨p, d₁, ws, hp, hd₁⟩ := addScalar_reaches hc hd hcol hf hn.isPlain
        obtain ⟨_, _, _, hadd, _, _⟩ := addScalar_eq_ok.1 hp
        have hid : d₁.entity.tableId = d.entity.tableId := by rw [hadd.entity_eq]; rfl
        have hrest := ih hcols' hkeys.2 hd₁ (hid ▸ hdone.append hcol hn hname)
          (by rw [hid]; simpa using nodup_append_singleton hnew hfresh)
        rw [List.map_append, List.map_singleton, List.append_assoc, List.singleton_append,
          hadd.claims_eq, freeColumns_insert hkeys.1, hadd.entity_eq] at hrest
        rw [hlook, Outcome.ask_ok]
        simp only [hp, Outcome.andThen_ok]
        exact (hrest.map fun _ _ h => h).after

end Draft

def Table.unclaimed (c : Convention) (s : Settings) (schema : Schema) (t : Table) :
    Answer (List Column) := do
  let version ← Draft.versionColumn c t (s.normalize t.id) ⟨t.keyColumns⟩
  let claims : Claims := ⟨t.keyColumns ++ version.toList⟩
  let keys ← boundKeys c s schema claims t.foreignKeys
  pure (Draft.freeColumns (claims.insertAll (keyedColumns keys)) t.columns)

/-- A refusal over two columns of a list whose properties would have one name. -/
def Table.ClashesWith (c : Convention) (s : Settings) (t : Table) (cols : List Column)
    (r : Refusal) : Prop :=
  ∃ entity a b n, entityName c s t.id = .ok entity ∧
    FirstRepeat (columnName c (s.normalize t.id)) cols a b ∧
    columnName c (s.normalize t.id) b = .ok n ∧
    r = .sharedName entity t.id a.name b.name n

/-- The table fails by itself: over its key columns, or else over those that are left. -/
def Table.FailsWith (c : Convention) (s : Settings) (schema : Schema) (t : Table)
    (r : Refusal) : Prop :=
  t.ClashesWith c s t.keyColumns r ∨
    (t.keyColumns.map (columnName c (s.normalize t.id))).Nodup ∧
      ∃ cols, t.unclaimed c s schema = .ok cols ∧ t.ClashesWith c s cols r

structure Table.IsClear (c : Convention) (s : Settings) (schema : Schema) (t : Table) : Prop where
  keys : (t.keyColumns.map (columnName c (s.normalize t.id))).Nodup
  rest : ∃ cols, t.unclaimed c s schema = .ok cols ∧
    (cols.map (columnName c (s.normalize t.id))).Nodup

namespace Table
variable {t : Table} {r r' : Refusal} {cols : List Column}

theorem isClear_iff : t.IsClear c s schema ↔
    (t.keyColumns.map (columnName c (s.normalize t.id))).Nodup ∧
      ∃ cols, t.unclaimed c s schema = .ok cols ∧
        (cols.map (columnName c (s.normalize t.id))).Nodup :=
  ⟨fun h => ⟨h.keys, h.rest⟩, fun h => ⟨h.1, h.2⟩⟩

theorem ClashesWith.not_nodup (h : t.ClashesWith c s cols r) :
    ¬ (cols.map (columnName c (s.normalize t.id))).Nodup := by
  obtain ⟨_, _, _, _, _, hr, _⟩ := h
  exact hr.not_nodup

theorem ClashesWith.unique (h : t.ClashesWith c s cols r) (h' : t.ClashesWith c s cols r') :
    r = r' := by
  obtain ⟨entity, a, b, n, he, hr, hn, rfl⟩ := h
  obtain ⟨entity', a', b', n', he', hr', hn', rfl⟩ := h'
  obtain ⟨rfl, rfl⟩ := hr.unique hr'
  rw [Except.ok.inj (he.symm.trans he'), Except.ok.inj (hn.symm.trans hn')]

theorem FailsWith.unique (h : t.FailsWith c s schema r) (h' : t.FailsWith c s schema r') :
    r = r' := by
  rcases h with h | ⟨hk, cols, hu, h⟩ <;> rcases h' with h' | ⟨hk', cols', hu', h'⟩
  · exact h.unique h'
  · exact absurd hk' h.not_nodup
  · exact absurd hk h'.not_nodup
  · obtain rfl : cols = cols' := Except.ok.inj (hu.symm.trans hu')
    exact h.unique h'

theorem ClashesWith.eq_sharedName (hc : c.IsTotal) (hid : t.id.IsTyped)
    (hcols : ∀ col ∈ cols, col.IsTyped) (h : t.ClashesWith c s cols r) :
    ∃ entity table first second name, r = .sharedName entity table first second (.text name) := by
  obtain ⟨entity, a, b, n, _, ⟨pre, post, rfl, _⟩, hn, rfl⟩ := h
  have hb : b.IsTyped := hcols b (by simp)
  obtain ⟨name, rfl⟩ := (hc.propertyName _ _ (hid.normalize s) hb.1).of_eq_ok hn
  exact ⟨_, _, _, _, name, rfl⟩

theorem subset_of_unclaimed (h : t.unclaimed c s schema = .ok cols) : cols ⊆ t.columns := by
  simp only [unclaimed, Answer.bind_eq_ok, Answer.pure_eq_ok] at h
  obtain ⟨_, _, _, _, rfl⟩ := h
  exact List.filter_sublist.subset

theorem FailsWith.eq_sharedName (hc : c.IsTotal) (ht : t.IsTyped) (h : t.FailsWith c s schema r) :
    ∃ entity table first second name, r = .sharedName entity table first second (.text name) := by
  obtain ⟨hid, hcolumns, hkey, _⟩ := ht
  rcases h with h | ⟨_, cols, hu, h⟩
  · exact h.eq_sharedName hc hid hkey
  · exact h.eq_sharedName hc hid fun col hcol => hcolumns col (subset_of_unclaimed hu hcol)

theorem IsClear.not_failsWith (h : t.IsClear c s schema) : ¬ t.FailsWith c s schema r := by
  rintro (hf | ⟨_, cols, hu, hf⟩)
  · exact hf.not_nodup h.keys
  · obtain ⟨cols', hu', hn⟩ := h.rest
    obtain rfl : cols = cols' := Except.ok.inj (hu.symm.trans hu')
    exact hf.not_nodup hn

end Table

theorem Draft.unclaimed_eq {t : Table} {b : Entity} {d : Draft} {refs : List Property}
    {ws : List Warning} (hb : Entity.blank c s t = .ok b)
    (h : (((identify c s ⟨b, {}⟩).andThen fun _ d => d.addVersionOf c).andThen fun _ d =>
      d.addReferencesOf c s schema) = ⟨.ok refs, d, ws⟩) :
    d.entity.name = b.name ∧ d.entity.table = t ∧ d.entity.tableId = s.normalize t.id ∧
      t.unclaimed c s schema = .ok (freeColumns d.claims t.columns) := by
  obtain ⟨v, d₂, _, _, h₁₂, h₃, _⟩ := Outcome.andThen_eq_ok.1 h
  obtain ⟨o, hv⟩ := isVersioned_of_eq_ok hb h₁₂
  obtain ⟨ks, hks, _, _, he₃, hc₃⟩ := addReferences_eq_ok h₃
  have hclaims : d₂.claims = ⟨t.keyColumns ++ o.toList⟩ := by
    rw [hv.claimed, startingClaims, hv.columns_eq]
  rw [he₃]
  refine ⟨?_, hv.table_eq hb, hv.tableId_eq hb, ?_⟩
  · rw [hv.grown]
    rfl
  · rw [hv.table_eq hb, hclaims] at hks
    simp only [Table.unclaimed, hv.searched, bind, Except.bind, hks, hc₃, hclaims]
    rfl

/-- The first four steps are refused as the table fails by itself, or they succeed. -/
theorem Draft.complete_cases (hc : c.IsTotal) {t : Table} {b : Entity}
    (hb : Entity.blank c s t = .ok b) (hready : b.IsReady) :
    (∃ r, t.FailsWith c s schema r ∧ (complete c s schema ⟨b, {}⟩).answer = .error r) ∨
      t.IsClear c s schema ∧
        (complete c s schema ⟨b, {}⟩).Reaches fun _ d => d.entity.IsReady := by
  obtain ⟨htable, hid, hname, _⟩ := Entity.blank_eq_ok hb
  rcases identify_clashesAt hc hready with ⟨a, b', n, hr, hn, ho⟩ | ⟨hkeys, hidentified⟩
  · rw [htable, hid] at hr
    rw [hid] at hn
    rw [htable] at ho
    refine .inl ⟨_, .inl ⟨b.name, a, b', n, hname, hr, hn, rfl⟩, ?_⟩
    rw [complete, Outcome.answer_andThen_eq_error, Outcome.answer_andThen_eq_error,
      Outcome.answer_andThen_eq_error]
    exact .inl (.inl (.inl ho))
  · rw [htable, hid] at hkeys
    have hversioned := hidentified.andThen fun _ _ hd => addVersionOf_reaches hc hd
    have hreferenced : (((identify c s ⟨b, {}⟩).andThen fun _ d => d.addVersionOf c).andThen
        fun _ d => d.addReferencesOf c s schema).Reaches fun _ d => d.entity.IsReady :=
      hversioned.andThen fun _ _ hd => addReferences_reaches hc hd hd.table.2.2.2
    obtain ⟨refs, d, ws, h, hd⟩ := hreferenced
    obtain ⟨hdname, hdtable, hdid, hunclaimed⟩ := unclaimed_eq hb h
    have hdone : NamesDone c d.entity.tableId [] := fun _ hx => absurd hx List.not_mem_nil
    have hscalars := addScalars_clashesAt hc hd.table.2.1 d.entity.table.nameKeys_nodup hd hdone
      List.nodup_nil
    have hrest : (complete c s schema ⟨b, {}⟩).ClashesAt c d.entity
        (freeColumns d.claims d.entity.table.columns) fun _ d => d.entity.IsReady :=
      Outcome.ClashesAt.of_andThen h (hscalars.map fun _ _ hd' => hd')
    rw [hdtable] at hrest
    rcases hrest with ⟨a, b', n, hr, hn, hanswer⟩ | ⟨hn, hreach⟩
    · rw [hdid] at hr hn
      rw [hdname, hdtable] at hanswer
      exact .inl ⟨_, .inr ⟨hkeys, _, hunclaimed, b.name, a, b', n, hname, hr, hn, rfl⟩, hanswer⟩
    · rw [hdid] at hn
      exact .inr ⟨⟨hkeys, _, hunclaimed, hn⟩, hreach⟩

end EntityMapping
