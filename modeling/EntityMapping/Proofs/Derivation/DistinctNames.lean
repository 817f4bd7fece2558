import EntityMapping.Proofs.Derivation.Run

/-! # Names stay distinct

An entity takes a property only under a name that is new to it, so that no step makes two of its
names the same. This holds of whatever a step leaves behind, also when it is refused. The first pass
issues only warnings of its own.
-/
namespace EntityMapping

variable {c : Convention} {s : Settings} {schema : Schema}

namespace Warning

def IsOfBinding : Warning → Prop
  | .noPrimaryKey _ _ | .lockColumnMissing _ _ | .lockColumnClaimed _ _ | .unusableVersion _ _ _
  | .targetOutside _ => True
  | _ => False

def IsOfCollecting : Warning → Prop
  | .collectionsSkipped _ _ => True
  | _ => False

end Warning

namespace Entity

/-- No two names in use mean the same. -/
def HasDistinctNames (e : Entity) : Prop := (e.names.map Document.key).Nodup

theorem HasDistinctNames.add {e e' : Entity} {p : Property} (h : e.HasDistinctNames)
    (ha : e.add p = .ok e') : e'.HasDistinctNames := by
  obtain ⟨_, hfree, _⟩ := add_eq_ok.1 ha
  have hnew : p.name.key ∉ e.names.map Document.key := Naming.isTaken_eq_false_iff.1 hfree
  rw [HasDistinctNames, names_add ha, List.map_append]
  exact h.append (List.nodup_singleton _) (by simpa using hnew)

theorem HasDistinctNames.freeze {e : Entity} (h : e.HasDistinctNames) :
    e.freeze.HasDistinctNames := h

theorem hasDistinctNames_of_identifier {e : Entity} (he : e.properties = []) {i : Identifier}
    (hi : (i.names.map Document.key).Nodup) : { e with identifier := i }.HasDistinctNames := by
  rw [HasDistinctNames, names, he, List.map_nil, List.append_nil]
  split
  · exact hi
  · exact List.nodup_nil

theorem hasDistinctNames_blank {t : Table} {b : Entity} (hb : Entity.blank c s t = .ok b) :
    b.HasDistinctNames := by
  simp only [blank, Answer.bind_eq_ok, Answer.pure_eq_ok] at hb
  obtain ⟨_, _, _, _, _, _, _, _, rfl⟩ := hb
  exact List.nodup_nil

end Entity

namespace Draft
variable {d : Draft} {Q : Warning → Prop}

theorem claimKey_keeps (e : Entity) (name : Name) (col : Column) (claims : Claims) :
    (claimKey c e name col claims).Keeps (fun _ => True) Q := by
  refine Outcome.keeps_ask trivial fun p _ => Outcome.Keeps.map ?_
  unfold Claims.mark
  split
  · exact Outcome.keeps_refused trivial
  · exact Outcome.keeps_done trivial

theorem keyProperties_keeps (e : Entity) (cols : List Column) (done : Named Column)
    (claims : Claims) : (keyProperties c e cols done claims).Keeps (fun _ => True) Q := by
  induction cols generalizing done claims with
  | nil => exact Outcome.keeps_done trivial
  | cons col cols ih =>
    refine Outcome.keeps_ask trivial fun name _ => Outcome.keeps_ask trivial fun o _ => ?_
    cases o with
    | some _ => exact Outcome.keeps_refused trivial
    | none => exact (claimKey_keeps e name col claims).andThen fun _ t _ _ _ => (ih _ t).map

/-- The names of the key properties are new among those of the columns done. -/
theorem keyProperties_names_nodup {e : Entity} {cols : List Column} {done : Named Column}
    {claims t : Claims} {ps : List Property} {ws : List Warning}
    (h : keyProperties c e cols done claims = ⟨.ok ps, t, ws⟩)
    (hd : (done.map fun x => x.1.key).Nodup) :
    (done.map (fun x => x.1.key) ++ ps.map fun p => p.name.key).Nodup := by
  induction cols generalizing done claims ps with
  | nil =>
    obtain ⟨rfl, _⟩ := Outcome.done_eq_ok.1 h
    simpa using hd
  | cons col cols ih =>
    obtain ⟨p, claims', qs, _, _, hnew, _, _, hq, rfl⟩ := keyProperties_cons_eq_ok.1 h
    have hfree : p.name.key ∉ done.map fun x => x.1.key := by
      rw [Named.get?, Option.map_eq_none_iff, List.find?_eq_none] at hnew
      intro hm
      obtain ⟨x, hx, hk⟩ := List.mem_map.1 hm
      exact hnew x hx (Document.same_iff.2 hk)
    have hd' : ((done ++ [(p.name, col)]).map fun x => x.1.key).Nodup := by
      rw [List.map_append]
      exact hd.append (List.nodup_singleton _) (by simpa using hfree)
    simpa using ih hq hd'

theorem identifierOf_keeps (e : Entity) (k : PrimaryKey) (claims : Claims) :
    (identifierOf c s e k claims).Keeps (fun _ => True) Q := by
  unfold identifierOf
  split
  · exact Outcome.keeps_ask trivial fun name _ =>
      (claimKey_keeps e name _ claims).andThen fun _ _ _ _ _ =>
        Outcome.keeps_ask trivial fun _ _ => Outcome.keeps_done trivial
  · exact (keyProperties_keeps e _ [] claims).andThen fun ps claims _ _ _ =>
      Outcome.keeps_ask trivial fun i _ => Outcome.keeps_done trivial

theorem compositeIdentifier_names_nodup {e : Entity} {ps : List Property} {i : Identifier}
    (h : compositeIdentifier c s e ps = .ok i) (hps : (ps.map fun p => p.name.key).Nodup) :
    (i.names.map Document.key).Nodup := by
  unfold compositeIdentifier at h
  split at h
  · obtain rfl := Answer.pure_eq_ok.1 h
    simpa [Identifier.names, Function.comp_def] using hps
  · simp only [Answer.bind_eq_ok, Answer.pure_eq_ok] at h
    obtain ⟨_, _, _, _, rfl⟩ := h
    exact List.nodup_singleton _

theorem identifierOf_names_nodup {e : Entity} {k : PrimaryKey} {i : Identifier}
    {claims t : Claims} {ws : List Warning}
    (h : identifierOf c s e k claims = ⟨.ok i, t, ws⟩) : (i.names.map Document.key).Nodup := by
  unfold identifierOf at h
  split at h
  · simp only [simpleIdentifier, Outcome.ask_eq_ok, Outcome.andThen_eq_ok] at h
    obtain ⟨name, _, p, u, _, us, _, ⟨_, _, hi⟩, _⟩ := h
    obtain ⟨rfl, _⟩ := Outcome.done_eq_ok.1 hi
    exact List.nodup_singleton _
  · simp only [Outcome.andThen_eq_ok, Outcome.ask_eq_ok] at h
    obtain ⟨ps, u, _, _, hps, ⟨j, hj, hi⟩, _⟩ := h
    obtain ⟨rfl, _⟩ := Outcome.done_eq_ok.1 hi
    have hnames := keyProperties_names_nodup hps List.nodup_nil
    exact compositeIdentifier_names_nodup hj (by simpa using hnames)

theorem identify_keeps {e : Entity} (he : e.HasDistinctNames) (hnone : e.properties = []) :
    (identify c s ⟨e, {}⟩).Keeps (fun d => d.entity.HasDistinctNames) Warning.IsOfBinding := by
  unfold identify
  cases e.table.primaryKey with
  | none =>
    refine Outcome.keeps_warn he trivial (Outcome.keeps_done ?_)
    exact Entity.hasDistinctNames_of_identifier hnone List.nodup_nil
  | some k =>
    have hkeeps : (identifierOf c s e k {}).Keeps (fun _ => True) Warning.IsOfBinding :=
      identifierOf_keeps e k {}
    dsimp only
    generalize ho : identifierOf c s e k {} = o at hkeeps
    rcases o with ⟨refusal | i, claims, ws⟩
    · exact ⟨he, hkeeps.warnings⟩
    · exact ⟨Entity.hasDistinctNames_of_identifier hnone (identifierOf_names_nodup ho),
        hkeeps.warnings⟩

theorem claim_keeps (h : d.entity.HasDistinctNames) (col : Column) :
    (d.claim col).Keeps (fun d => d.entity.HasDistinctNames) Q := by
  unfold claim Claims.mark
  split
  · exact ⟨h, nofun⟩
  · exact ⟨h, nofun⟩

theorem append_keeps (h : d.entity.HasDistinctNames) (col : Column) (name : Name)
    (role : Role) : (append c d col name role).Keeps (fun d => d.entity.HasDistinctNames) Q := by
  refine Outcome.keeps_ask h fun name _ => Outcome.keeps_ask h fun p _ => ?_
  split
  · exact Outcome.keeps_refused h
  · rename_i e he
    exact Outcome.keeps_done (h.add he)

theorem addVersion_keeps (h : d.entity.HasDistinctNames) (col : Column) :
    (addVersion c d col).Keeps (fun d => d.entity.HasDistinctNames) Q :=
  Outcome.keeps_ask h fun name _ =>
    (append_keeps h col name .version).andThen fun p d _ _ h' =>
      (claim_keeps (d := ⟨{ d.entity with version := some p }, d.claims⟩) h' col).map

theorem addScalar_keeps (h : d.entity.HasDistinctNames) (col : Column) (name : Name) :
    (addScalar c d col name).Keeps (fun d => d.entity.HasDistinctNames) Q :=
  (append_keeps h col name .scalar).andThen fun _ _ _ _ h' => (claim_keeps h' col).map

theorem searchVersion_keeps (h : d.entity.HasDistinctNames) (cols : List Column) :
    (searchVersion c d cols).Keeps (fun d => d.entity.HasDistinctNames) Warning.IsOfBinding := by
  induction cols with
  | nil => exact Outcome.keeps_done h
  | cons col cols ih =>
    unfold searchVersion
    dsimp only
    split
    · exact ih
    · refine Outcome.keeps_ask h fun isVersion _ => ?_
      split
      · exact ih
      · refine Outcome.keeps_ask h fun type _ => ?_
        split
        · exact addVersion_keeps h col
        · exact Outcome.keeps_warn h trivial ih

theorem addNamedVersion_keeps (h : d.entity.HasDistinctNames) (name : Name) :
    (addNamedVersion c d name).Keeps (fun d => d.entity.HasDistinctNames)
      Warning.IsOfBinding := by
  refine Outcome.keeps_ask h fun o _ => ?_
  cases o with
  | none => exact Outcome.keeps_warn h trivial (Outcome.keeps_done h)
  | some col =>
    dsimp only
    split
    · exact Outcome.keeps_warn h trivial (Outcome.keeps_done h)
    · exact addVersion_keeps h col

theorem addVersionOf_keeps (h : d.entity.HasDistinctNames) :
    (addVersionOf c d).Keeps (fun d => d.entity.HasDistinctNames) Warning.IsOfBinding := by
  refine Outcome.keeps_ask h fun name _ => ?_
  split
  · exact addNamedVersion_keeps h name
  · exact searchVersion_keeps h _

theorem addReference_keeps (h : d.entity.HasDistinctNames) (f : ForeignKey) (m : Bool) :
    (addReference c s d f m).Keeps (fun d => d.entity.HasDistinctNames) Q := by
  refine Outcome.keeps_ask h fun p _ => ?_
  split
  · exact Outcome.keeps_refused h
  · rename_i e he
    exact Outcome.keeps_done (h.add he)

theorem addReferences_keeps (h : d.entity.HasDistinctNames) (fs : List ForeignKey) :
    (addReferences c s schema fs d).Keeps (fun d => d.entity.HasDistinctNames)
      Warning.IsOfBinding := by
  induction fs generalizing d with
  | nil => exact Outcome.keeps_done h
  | cons f fs ih =>
    rw [addReferences]
    split
    · refine Outcome.keeps_ask h fun tr _ => ?_
      cases tr with
      | skipped => exact ih h
      | claimed => exact ih h
      | bound m => exact (addReference_keeps h f m).andThen fun _ _ _ _ h' => (ih h').map
    · exact Outcome.keeps_warn h trivial (ih h)

theorem addScalars_keeps (h : d.entity.HasDistinctNames) (cols : List Column)
    (done : Named Column) :
    (addScalars c cols done d).Keeps (fun d => d.entity.HasDistinctNames) Q := by
  induction cols generalizing done d with
  | nil => exact Outcome.keeps_done h
  | cons col cols ih =>
    rw [addScalars]
    split
    · exact ih h done
    · refine Outcome.keeps_ask h fun name _ => Outcome.keeps_ask h fun o _ => ?_
      cases o with
      | some _ => exact Outcome.keeps_refused h
      | none =>
        exact (addScalar_keeps h col name).andThen fun _ _ _ _ h' => (ih h' _).map

section
variable {t : Table} {b : Entity}

theorem identify_blank_keeps (hb : Entity.blank c s t = .ok b) :
    (identify c s ⟨b, {}⟩).Keeps (fun d => d.entity.HasDistinctNames) Warning.IsOfBinding :=
  identify_keeps (Entity.hasDistinctNames_blank hb) (Entity.blank_eq_ok hb).2.2.2.1

theorem versioned_keeps (hb : Entity.blank c s t = .ok b) :
    ((identify c s ⟨b, {}⟩).andThen fun _ d => d.addVersionOf c).Keeps
      (fun d => d.entity.HasDistinctNames) Warning.IsOfBinding :=
  (identify_blank_keeps hb).andThen fun _ _ _ _ h => addVersionOf_keeps h

theorem referenced_keeps (hb : Entity.blank c s t = .ok b) :
    (((identify c s ⟨b, {}⟩).andThen fun _ d => d.addVersionOf c).andThen fun _ d =>
      d.addReferencesOf c s schema).Keeps
      (fun d => d.entity.HasDistinctNames) Warning.IsOfBinding :=
  (versioned_keeps hb).andThen fun _ _ _ _ h => addReferences_keeps h _

theorem complete_keeps (hb : Entity.blank c s t = .ok b) :
    (complete c s schema ⟨b, {}⟩).Keeps (fun d => d.entity.HasDistinctNames)
      Warning.IsOfBinding :=
  (referenced_keeps hb).andThen fun _ _ _ _ h => (addScalars_keeps h _ []).map

end

end Draft

namespace Registry

theorem bind_keeps {r : Registry} (h : ∀ e ∈ r.entities, e.HasDistinctNames) (t : Table) :
    (r.bind c s schema t).Keeps (fun r => ∀ e ∈ r.entities, e.HasDistinctNames)
      Warning.IsOfBinding := by
  rw [bind_eq]
  refine Outcome.keeps_ask h fun b hb => ?_
  have hkeeps : (Draft.complete c s schema ⟨b, {}⟩).Keeps (fun d => d.entity.HasDistinctNames)
      Warning.IsOfBinding := Draft.complete_keeps hb
  dsimp only
  generalize Draft.complete c s schema ⟨b, {}⟩ = o at hkeeps
  rcases o with ⟨refusal | _, d, ws⟩
  · exact ⟨h, hkeeps.warnings⟩
  · dsimp only
    cases he : r.enter d.entity with
    | error refusal => exact ⟨h, hkeeps.warnings⟩
    | ok r' =>
      refine ⟨?_, hkeeps.warnings⟩
      obtain ⟨_, rfl⟩ := enter_eq_ok.1 he
      intro e he
      rcases List.mem_append.1 he with he | he
      · exact h e he
      · rw [List.mem_singleton.1 he]
        exact hkeeps.state.freeze

theorem bindAll_keeps {r : Registry} (h : ∀ e ∈ r.entities, e.HasDistinctNames)
    (ts : List Table) :
    (bindAll c s schema ts r).Keeps (fun r => ∀ e ∈ r.entities, e.HasDistinctNames)
      Warning.IsOfBinding := by
  induction ts generalizing r with
  | nil => exact Outcome.keeps_done h
  | cons t ts ih => exact (bind_keeps h t).andThen fun _ _ _ _ h' => (ih h').map

theorem bindAll_empty_keeps (c : Convention) (s : Settings) (schema : Schema) (ts : List Table) :
    (bindAll c s schema ts {}).Keeps (fun r => ∀ e ∈ r.entities, e.HasDistinctNames)
      Warning.IsOfBinding :=
  bindAll_keeps (fun _ he => absurd he List.not_mem_nil) ts

end Registry
end EntityMapping
