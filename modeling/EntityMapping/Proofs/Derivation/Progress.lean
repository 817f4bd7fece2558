import EntityMapping.Derivation.TableBinding
import EntityMapping.Proofs.Convention.Total
import EntityMapping.Proofs.Derivation.Reference

/-! # Steps that always succeed

Over a typed table and under a total convention the version and the references are added without a
refusal: names in use can be looked up, new ones are free, and every warning can be shown.
-/
namespace EntityMapping
open Document

variable {c : Convention} {s : Settings} {schema : Schema}

namespace Entity

structure IsReady (e : Entity) : Prop where
  table : e.table.IsTyped
  tableId : e.tableId.IsTyped
  names : e.HasPlainNames
  unsealed : e.isSealed = false

theorem IsReady.extend {e : Entity} (he : e.IsReady) {p : Property} (hp : p.name.isPlain) :
    (e.extend [p]).IsReady :=
  ⟨he.table, he.tableId, he.names.extend hp, he.unsealed⟩

theorem IsReady.withVersion {e : Entity} (he : e.IsReady) (v : Option Property) :
    { e with version := v }.IsReady :=
  ⟨he.table, he.tableId, he.names, he.unsealed⟩

theorem IsReady.withIdentifier {e : Entity} (he : e.IsReady) {i : Identifier}
    (hi : ∀ n ∈ i.names, n.isPlain) : { e with identifier := i }.IsReady := by
  refine ⟨he.table, he.tableId, ?_, he.unsealed⟩
  intro n hn
  rcases List.mem_append.1 hn with hn | hn
  · split at hn
    · exact hi n hn
    · cases hn
  · exact he.names n (List.mem_append_right _ hn)

theorem IsReady.add {e : Entity} (he : e.IsReady) {p : Property} (hp : p.name.isPlain)
    (hfree : Naming.isTaken e.names p.name = false) :
    e.add p = .ok (e.extend [p]) ∧ (e.extend [p]).IsReady :=
  ⟨add_eq_ok.2 ⟨fun h => absurd h (by simp [he.unsealed]), hfree, rfl⟩, he.extend hp⟩

end Entity

theorem Answer.exists_ok_of_pure {x : Answer String} {f : String → String}
    (h : ∃ t, x = .ok t) : ∃ m, (x >>= fun t => pure (f t)) = .ok m := by
  obtain ⟨t, rfl⟩ := h
  exact ⟨f t, rfl⟩

namespace Warning

def IsTyped : Warning → Prop
  | .noPrimaryKey table _ | .lockColumnMissing _ table | .lockColumnClaimed _ table
  | .unusableVersion _ table _ | .collectionsSkipped _ table | .unknownLocalColumn _ table _
  | .unreadableKey _ table => table.IsTyped
  | .targetOutside key | .ownerUnbound key => key.IsTyped

theorem IsTyped.message_isOk {w : Warning} (h : w.IsTyped) : ∃ m, w.message = .ok m := by
  cases w with
  | targetOutside key | ownerUnbound key =>
    obtain ⟨t, ht⟩ := h.text_isOk
    obtain ⟨u, hu⟩ := h.1.text_isOk
    obtain ⟨v, hv⟩ := h.2.1.text_isOk
    simp only [message, ht, hu, hv]
    exact ⟨_, rfl⟩
  | collectionsSkipped => exact Answer.exists_ok_of_pure (Answer.exists_ok_of_pure h.text_isOk)
  | _ => exact Answer.exists_ok_of_pure h.text_isOk

end Warning

theorem columnProperty_gives (hc : c.IsTotal) {id : TableId} (hid : id.IsTyped) {col : Column}
    (hcol : col.IsTyped) (name : Name) (role : Role) (b : Bool) :
    (columnProperty c id name col role b).Gives fun p =>
      p.name = name ∧ p.IsMadeFrom c id col role b := by
  obtain ⟨type, ht, _⟩ := hc.logicalType id col b hid hcol
  obtain ⟨d, hd, hr⟩ := hc.columnAnnotations id col.name hid hcol.1
  obtain ⟨as, has⟩ := hr.annotations_isOk
  obtain ⟨p, hp⟩ : ∃ p, columnProperty c id name col role b = .ok p := by
    rw [columnProperty, ht, hd]
    simp only [bind, Except.bind, has]
    exact ⟨_, rfl⟩
  exact ⟨p, hp, columnProperty_eq_ok.1 hp⟩

namespace Draft

theorem append_reaches (hc : c.IsTotal) {d : Draft} (hd : d.entity.IsReady) {col : Column}
    (hcol : col.IsTyped) {name : Name} (hn : name.isPlain) (role : Role) :
    (append c d col name role).Reaches fun _ d' => d'.entity.IsReady ∧ d'.claims = d.claims := by
  obtain ⟨p, _, hp, hm⟩ :=
    columnProperty_gives hc hd.tableId hcol (Naming.fresh d.entity.names name) role false
  refine ⟨p, ⟨d.entity.extend [p], d.claims⟩, [], ?_, ?_, rfl⟩
  · exact append_eq_ok.2 ⟨hd.names, hn, hp, hm, fun h => absurd h (by simp [hd.unsealed]), rfl,
      rfl⟩
  · exact hd.extend (hp ▸ Naming.fresh_isPlain hn)

theorem addScalar_reaches (hc : c.IsTotal) {d : Draft} (hd : d.entity.IsReady) {col : Column}
    (hcol : col.IsTyped) (hfree : d.claims.has col = false) {name : Name} (hn : name.isPlain) :
    (addScalar c d col name).Reaches fun _ d' => d'.entity.IsReady := by
  apply (append_reaches hc hd hcol hn .scalar).andThen
  rintro p d₁ ⟨hd₁, hclaims⟩
  rw [claim_of_free (hclaims ▸ hfree)]
  exact (Outcome.reaches_done hd₁).map fun _ _ h => h

theorem addVersion_reaches (hc : c.IsTotal) {d : Draft} (hd : d.entity.IsReady) {col : Column}
    (hcol : col.IsTyped) (hfree : d.claims.has col = false) :
    (addVersion c d col).Reaches fun _ d' => d'.entity.IsReady := by
  apply Outcome.reaches_ask (hc.propertyName _ _ hd.tableId hcol.1)
  intro name hn
  apply (append_reaches hc hd hcol hn.isPlain .version).andThen
  rintro p d₁ ⟨hd₁, hclaims⟩
  rw [claim_of_free (hclaims ▸ hfree)]
  exact (Outcome.reaches_done (hd₁.withVersion _)).map fun _ _ h => h

theorem searchVersion_reaches (hc : c.IsTotal) {d : Draft} (hd : d.entity.IsReady)
    {cols : List Column} (hcols : ∀ col ∈ cols, col.IsTyped) :
    (searchVersion c d cols).Reaches fun _ d' => d'.entity.IsReady := by
  induction cols with
  | nil => exact Outcome.reaches_done hd
  | cons col cols ih =>
    have hrest := ih fun col hcol => hcols col (List.mem_cons_of_mem _ hcol)
    have hcol := hcols col List.mem_cons_self
    unfold searchVersion
    dsimp only
    split
    · exact hrest
    · rename_i hfree
      apply Outcome.reaches_ask (hc.isVersionColumn _ _ hd.tableId hcol.1)
      intro isVersion _
      split
      · exact hrest
      · obtain ⟨type, ht, htext⟩ := hc.logicalType _ col false hd.tableId hcol
        have hkey : Answer.Gives (do (← c.logicalType d.entity.tableId col false).asKey)
            fun _ => True :=
          ⟨type, by rw [ht]; exact asKey_of_isText htext, trivial⟩
        apply Outcome.reaches_ask hkey
        intro type _
        split
        · exact addVersion_reaches hc hd hcol (Bool.eq_false_iff.2 hfree)
        · exact Outcome.reaches_warn (Warning.IsTyped.message_isOk hd.tableId) hrest

theorem addNamedVersion_reaches (hc : c.IsTotal) {d : Draft} (hd : d.entity.IsReady) {name : Name}
    (hn : name.IsText) : (addNamedVersion c d name).Reaches fun _ d' => d'.entity.IsReady := by
  have hcolumn : (d.entity.table.column name).Gives fun o => o = d.entity.table.column? name :=
    ⟨_, by rw [Table.column, asKey_of_isText hn]; rfl, rfl⟩
  apply Outcome.reaches_ask hcolumn
  intro o ho
  cases o with
  | none =>
    exact Outcome.reaches_warn (Warning.IsTyped.message_isOk hd.tableId)
      (Outcome.reaches_done hd)
  | some col =>
    have hcol := hd.table.2.1 col (Column.mem_of_find? ho.symm).1
    dsimp only
    split
    · exact Outcome.reaches_warn (Warning.IsTyped.message_isOk hd.tableId)
        (Outcome.reaches_done hd)
    · rename_i hfree
      exact addVersion_reaches hc hd hcol (Bool.eq_false_iff.2 hfree)

theorem addVersionOf_reaches (hc : c.IsTotal) {d : Draft} (hd : d.entity.IsReady) :
    (addVersionOf c d).Reaches fun _ d' => d'.entity.IsReady := by
  apply Outcome.reaches_ask (hc.lockColumn _ hd.tableId)
  intro name hn
  split
  · rename_i ht
    exact addNamedVersion_reaches hc hd (hn.isText ht)
  · exact searchVersion_reaches hc hd hd.table.2.1

theorem treatment_gives (hc : c.IsTotal) {f : ForeignKey} (hf : f.IsTyped) (claims : Claims) :
    (treatment c s claims f).Gives fun _ => True := by
  obtain ⟨skips, hs, _⟩ := hc.skipsReference f hf
  exact ⟨_, treatment_eq_ok.2 ⟨skips, hs, rfl⟩, trivial⟩

theorem addReference_reaches (hc : c.IsTotal) {d : Draft} (hd : d.entity.IsReady)
    {f : ForeignKey} (hf : f.IsTyped) (m : Bool) :
    (addReference c s d f m).Reaches fun _ d' => d'.entity.IsReady := by
  obtain ⟨name, hname, hn⟩ := hc.referenceName f (d.entity.table.refersOnce f) hf
  obtain ⟨target, htarget, _⟩ := hc.className _ (hf.2.1.normalize s)
  obtain ⟨q, hq, hplain⟩ : ∃ q, referenceSketch c s d.entity.table f m = .ok q ∧
      q.name.isPlain := by
    rw [referenceSketch, hname]
    simp only [bind, Except.bind, entityName, htarget]
    exact ⟨_, rfl, hn.isPlain⟩
  obtain ⟨hadd, hready⟩ := hd.add (p := q.named (Naming.fresh d.entity.names q.name))
    (Naming.fresh_isPlain hplain) (Naming.isTaken_fresh _ _)
  exact ⟨_, ⟨d.entity.extend [_], d.claims.insertAll f.columns⟩, [], addReference_eq_ok.2
    ⟨referenceProperty_eq_ok.2 ⟨q, hq, hd.names, hplain, rfl⟩, hadd, rfl, rfl⟩, hready⟩

theorem addReferences_reaches (hc : c.IsTotal) {d : Draft} (hd : d.entity.IsReady)
    {fs : List ForeignKey} (hfs : ∀ f ∈ fs, f.IsTyped) :
    (addReferences c s schema fs d).Reaches fun _ d' => d'.entity.IsReady := by
  induction fs generalizing d with
  | nil => exact Outcome.reaches_done hd
  | cons f fs ih =>
    have hrest : ∀ {d : Draft}, d.entity.IsReady →
        (addReferences c s schema fs d).Reaches fun _ d' => d'.entity.IsReady := fun hd =>
      ih hd fun f hf => hfs f (List.mem_cons_of_mem _ hf)
    have hf := hfs f List.mem_cons_self
    rw [addReferences]
    split
    · apply Outcome.reaches_ask (treatment_gives hc hf d.claims)
      intro tr _
      cases tr with
      | skipped => exact hrest hd
      | claimed => exact hrest hd
      | bound m =>
        apply (addReference_reaches hc hd hf m).andThen
        intro p d₁ hd₁
        exact (hrest hd₁).map fun _ _ h => h
    · exact Outcome.reaches_warn (Warning.IsTyped.message_isOk hf) (hrest hd)

end Draft

theorem Entity.blank_gives (hc : c.IsTotal) {t : Table} (ht : t.IsTyped) :
    (Entity.blank c s t).Gives IsReady := by
  have hid := ht.1.normalize s
  obtain ⟨_, hname, n, rfl⟩ := hc.className _ hid
  obtain ⟨d, hd, hr⟩ := hc.tableAnnotations _ hid
  obtain ⟨as, has⟩ := hr.annotations_isOk
  rw [Answer.Gives, blank, hname]
  simp only [bind, Except.bind, Naming.unqualifyName_text, hd, has]
  exact ⟨_, rfl, ht, hid, fun n hn => absurd hn List.not_mem_nil, rfl⟩

end EntityMapping
