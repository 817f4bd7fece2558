import EntityMapping.Proofs.Derivation.Run

/-! # The parts of a derived entity

The kinds of the properties tell the parts apart: what an entity has of each kind is one part of
its property list as a whole.
-/
namespace EntityMapping
open Column

variable {c : Convention} {s : Settings} {schema : Schema}

theorem filter_kind {ps : List Property} {k : RoleKind} (h : ∀ p ∈ ps, p.kind = k)
    (kinds : List RoleKind) :
    ps.filter (fun p => p.kind ∈ kinds) = if k ∈ kinds then ps else [] := by
  split
  · rename_i hk
    rw [List.filter_eq_self]
    intro p hp
    simpa [h p hp] using hk
  · rename_i hk
    rw [List.filter_eq_nil_iff]
    intro p hp
    simpa [h p hp] using hk

theorem boundKeys_sublist {claims : Claims} {fs : List ForeignKey}
    {ks : List (ForeignKey × Bool)} (h : boundKeys c s schema claims fs = .ok ks) :
    (ks.map Prod.fst).Sublist fs := by
  induction fs generalizing claims ks with
  | nil =>
    obtain rfl : ([] : List (ForeignKey × Bool)) = ks := Answer.pure_eq_ok.1 h
    exact .slnil
  | cons f fs ih =>
    rcases boundKeys_cons_eq_ok.1 h with ⟨m, ls, _, _, hls, rfl⟩ | ⟨_, hks⟩
    · exact (ih hls).cons_cons f
    · exact (ih hks).cons f

namespace Completes
variable {t : Table} {v : Option Property} {ks : List (ForeignKey × Bool)}
  {refs scs : List Property} {e : Entity}

theorem kind_version (h : Completes c s schema t v ks refs scs e) :
    ∀ p ∈ v.toList, p.kind = .version := by
  intro p hp
  obtain ⟨_, _, hm⟩ := h.versioned p (Option.mem_toList.1 hp)
  exact hm.kind_eq

theorem kind_references (h : Completes c s schema t v ks refs scs e) :
    ∀ p ∈ refs, p.kind = .reference := by
  intro p hp
  obtain ⟨_, _, hr⟩ := h.referenced.exists_left hp
  exact hr.kind_eq

theorem kind_scalars (h : Completes c s schema t v ks refs scs e) :
    ∀ p ∈ scs, p.kind = .scalar := by
  intro p hp
  obtain ⟨_, _, hm⟩ := h.scaled.exists_left hp
  exact hm.kind_eq

theorem ofKinds_eq (h : Completes c s schema t v ks refs scs e) (kinds : List RoleKind) :
    e.ofKinds kinds = (if .version ∈ kinds then v.toList else []) ++
      (if .reference ∈ kinds then refs else []) ++ (if .scalar ∈ kinds then scs else []) := by
  rw [Entity.ofKinds, h.properties_eq]
  simp only [List.filter_append, filter_kind h.kind_version, filter_kind h.kind_references,
    filter_kind h.kind_scalars]

theorem references_eq (h : Completes c s schema t v ks refs scs e) : e.references = refs := by
  simpa [Entity.references] using h.ofKinds_eq [.reference]

end Completes

theorem IsCompleted.kind_ne_collection {t : Table} {e : Entity} (h : IsCompleted c s schema t e) :
    ∀ p ∈ e.properties, p.kind ≠ .collection := by
  obtain ⟨v, ks, refs, scs, h⟩ := h
  have hnone : e.ofKinds [.collection] = [] := by simpa using h.ofKinds_eq [.collection]
  intro p hp hkind
  exact List.filter_eq_nil_iff.1 hnone p hp (by simp [hkind])

theorem IsCompleted.key_mem {t : Table} {e : Entity} (h : IsCompleted c s schema t e) :
    ∀ p ∈ e.references, ∀ f ∈ p.foreignKey?, f ∈ t.foreignKeys := by
  obtain ⟨v, ks, refs, scs, h⟩ := h
  intro p hp f hf
  rw [h.references_eq] at hp
  obtain ⟨k, hk, hr⟩ := h.referenced.exists_left hp
  rw [hr.foreignKey?_eq] at hf
  obtain rfl : k.1 = f := Option.some.inj hf
  exact (boundKeys_sublist h.planned).subset (List.mem_map_of_mem hk)

namespace Derives
variable {r : Registry} {t : Table} {v : Option Property} {ks : List (ForeignKey × Bool)}
  {refs scs colls : List Property} {e : Entity}

theorem version_eq (h : Derives c s schema r t v ks refs scs colls e) : e.version = v := by
  obtain ⟨d, hd, he⟩ := h.completed
  rw [he]
  exact hd.version_eq

theorem kind_collections (h : Derives c s schema r t v ks refs scs colls e) :
    ∀ p ∈ colls, p.kind = .collection := by
  intro p hp
  obtain ⟨_, _, _, _, hc⟩ := h.collected.exists_left hp
  exact hc.kind_eq

theorem ofKinds_eq (h : Derives c s schema r t v ks refs scs colls e) (kinds : List RoleKind) :
    e.ofKinds kinds = (if .version ∈ kinds then v.toList else []) ++
      (if .reference ∈ kinds then refs else []) ++ (if .scalar ∈ kinds then scs else []) ++
      (if .collection ∈ kinds then colls else []) := by
  obtain ⟨d, hd, _⟩ := h.completed
  rw [Entity.ofKinds, h.properties_eq]
  simp only [List.filter_append, filter_kind hd.kind_version, filter_kind hd.kind_references,
    filter_kind hd.kind_scalars, filter_kind h.kind_collections]

theorem references_eq (h : Derives c s schema r t v ks refs scs colls e) : e.references = refs := by
  simpa [Entity.references] using h.ofKinds_eq [.reference]

theorem scalars_eq (h : Derives c s schema r t v ks refs scs colls e) : e.scalars = scs := by
  simpa [Entity.scalars] using h.ofKinds_eq [.scalar]

theorem collections_eq (h : Derives c s schema r t v ks refs scs colls e) :
    e.collections = colls := by
  simpa [Entity.collections] using h.ofKinds_eq [.collection]

end Derives
end EntityMapping
