import EntityMapping.Proofs.Description.Typed

/-! # Grouping is a stable partition

Every row is in one group. A row without a name is alone in its group, the rows of one name are
together and in their order, and the groups come in the order of their first rows. Rows can be
equal, so that this is said of their positions.
-/
namespace EntityMapping
open Document

namespace Cluster
variable {α : Type} {name : α → Name} {as : List α} {c : Cluster α}

theorem others_sublist (name : α → Name) (a : α) (as : List α) : (others name a as).Sublist as :=
  List.filter_sublist

theorem mem_others {a b : α} : b ∈ others name a as ↔ b ∈ as ∧ ¬ (name a).shares (name b) := by
  simp [others, List.mem_filter]

/-- No entry is lost or repeated. -/
theorem flatten_byName_perm (name : α → Name) (as : List α) :
    ((byName name as).map entries).flatten.Perm as := by
  fun_induction byName name as with
  | case1 => exact .nil
  | case2 a as ih =>
    rw [List.map_cons, List.flatten_cons, entries, List.cons_append]
    exact ((ih.append_left _).trans (List.filter_append_perm _ as)).cons a

theorem sublist_of_mem_byName (hc : c ∈ byName name as) : c.entries.Sublist as := by
  fun_induction byName name as with
  | case1 => cases hc
  | case2 a as ih =>
    rcases List.mem_cons.1 hc with rfl | hc
    · exact List.filter_sublist.cons_cons a
    · exact ((ih hc).trans (others_sublist name a as)).cons a

theorem byName_pairwise_first {R : α → α → Prop} (h : as.Pairwise R) :
    (byName name as).Pairwise fun c c' => R c.first c'.first := by
  fun_induction byName name as with
  | case1 => exact .nil
  | case2 a as ih =>
    obtain ⟨hfirst, hrest⟩ := List.pairwise_cons.1 h
    refine List.pairwise_cons.2 ⟨fun c hc => ?_, ih (hrest.sublist (others_sublist name a as))⟩
    exact hfirst _ (mem_others.1 (mem_of_mem_byName hc List.mem_cons_self)).1

theorem byName_pairwise_name (name : α → Name) (as : List α) :
    (byName name as).Pairwise fun c c' => ¬ (name c.first).shares (name c'.first) := by
  fun_induction byName name as with
  | case1 => exact .nil
  | case2 a as ih =>
    refine List.pairwise_cons.2 ⟨fun c hc => ?_, ih⟩
    exact (mem_others.1 (mem_of_mem_byName hc List.mem_cons_self)).2

/-- A cluster has all entries of the name of any of its entries, or a single entry without a
name. -/
structure IsPart (name : α → Name) (as : List α) (c : Cluster α) : Prop where
  together : ∀ a ∈ c.entries, (name a).truthy → ∀ b, b ∈ c.entries ↔
    b ∈ as ∧ (name a).shares (name b)
  alone : ∀ a ∈ c.entries, ¬ (name a).truthy → c.entries = [a]

theorem isPart_first (name : α → Name) (a : α) (as : List α) :
    IsPart name (a :: as) ⟨a, as.filter fun b => (name a).shares (name b)⟩ := by
  by_cases hnamed : (name a).truthy
  · have hmem : ∀ b, b ∈ (⟨a, as.filter fun b => (name a).shares (name b)⟩ : Cluster α).entries ↔
        b ∈ a :: as ∧ (name a).shares (name b) := by
      intro b
      simp only [entries, List.mem_cons, List.mem_filter, or_and_right]
      refine or_congr_left (iff_self_and.2 ?_)
      rintro rfl
      exact shares_self hnamed
    constructor
    case together =>
      intro x hx _ b
      rw [hmem b, shares_congr ((hmem x).1 hx).2]
    case alone =>
      intro x hx hunnamed
      exact absurd (shares_iff.1 (shares_symm ((hmem x).1 hx).2)).1 hunnamed
  · have hsingle : (as.filter fun b => (name a).shares (name b)) = [] := by simp [shares, hnamed]
    rw [hsingle]
    constructor
    case together =>
      intro x hx hnamed'
      rw [List.mem_singleton.1 hx] at hnamed'
      exact absurd hnamed' hnamed
    case alone =>
      intro x hx _
      rw [List.mem_singleton.1 hx]
      rfl

/-- An entry that was put aside is not of the name of any that were left. -/
theorem IsPart.cons {a : α} (h : IsPart name (others name a as) c)
    (hc : ∀ b ∈ c.entries, b ∈ others name a as) : IsPart name (a :: as) c where
  together := by
    intro x hx hnamed b
    have hnot := (mem_others.1 (hc x hx)).2
    rw [h.together x hx hnamed, mem_others, List.mem_cons]
    constructor
    · rintro ⟨⟨hb, _⟩, hshares⟩
      exact ⟨.inr hb, hshares⟩
    · rintro ⟨rfl | hb, hshares⟩
      · exact absurd (shares_symm hshares) hnot
      · exact ⟨⟨hb, fun h => hnot (shares_trans h (shares_symm hshares))⟩, hshares⟩
  alone := h.alone

theorem isPart_of_mem_byName (hc : c ∈ byName name as) : IsPart name as c := by
  fun_induction byName name as with
  | case1 => cases hc
  | case2 a as ih =>
    rcases List.mem_cons.1 hc with rfl | hc
    · exact isPart_first name a as
    · exact (ih hc).cons fun b hb => mem_of_mem_byName hc hb

end Cluster

/-- The rows are records whose names, unless they are empty, can be looked up. -/
def KeyRow.AreNameable (ds : List Document) : Prop :=
  ∀ d ∈ ds, d.isRecord ∧ (d.givenAt "name").isPlain

instance (ds : List Document) : Decidable (KeyRow.AreNameable ds) :=
  inferInstanceAs (Decidable (∀ d ∈ ds, _))

theorem KeyRow.AreNameable.mapM_named {ds : List Document} (h : AreNameable ds) :
    (ds.map ofDocument).mapM named = .ok (ds.map fun d => (d.givenAt "name", ofDocument d)) := by
  rw [List.mapM_map]
  refine Answer.mapM_eq_map fun d hd => ?_
  obtain ⟨hrecord, hname⟩ := h d hd
  have hok : (ofDocument d).name = .ok (d.givenAt "name") := by
    rw [ofDocument, asRecord_of_isRecord hrecord]
    exact asKey_eq_ok.2 ⟨hname, rfl⟩
  show (ofDocument d).named = _
  rw [KeyRow.named, hok]
  rfl

namespace KeyGroup
variable {ds : List Document}

/-- The group has the rows at some positions, in their order: a row without a name, or all rows of
the name that its first row has. -/
structure Gathers (ds : List Document) (g : KeyGroup) (p : List (Fin ds.length)) : Prop where
  rows_eq : g.rows = p.map fun i => KeyRow.ofDocument ds[i]
  in_order : p.Pairwise (· < ·)
  named_first : p.head?.map (fun i => ds[i].givenAt "name") = some g.name
  alone : ∀ i ∈ p, ¬ (ds[i].field "name").truthy → p = [i] ∧ g.name = .null
  together : ∀ i ∈ p, (ds[i].field "name").truthy →
    ∀ j, j ∈ p ↔ (ds[i].field "name").same (ds[j].field "name")

/-- The groups have every row once, come in the order of their first rows, and have different names
unless they have none. -/
structure Partitions (ds : List Document) (gs : List KeyGroup)
    (ps : List (List (Fin ds.length))) : Prop where
  gathers : List.Forall₂ (Gathers ds) gs ps
  each_once : ps.flatten.Perm (List.finRange ds.length)
  by_first : ps.Pairwise fun p q => ∀ i ∈ p.head?, ∀ j ∈ q.head?, i < j
  names_differ : gs.Pairwise fun g g' => g.name.truthy → ¬ g.name.same g'.name

def positions (ds : List Document) : List (Cluster (Fin ds.length)) :=
  Cluster.byName (fun i => ds[i].field "name") (List.finRange ds.length)

theorem constraints_eq (ds : List Document) :
    constraints ds = (positions ds).map (Cluster.map fun i => ds[i]) := by
  rw [positions, ← Cluster.byName_map (field "name") fun i : Fin ds.length => ds[i], constraints]
  congr 1
  exact (List.map_getElem_finRange ds).symm

theorem gathers_of_mem_positions {c : Cluster (Fin ds.length)} (hc : c ∈ positions ds) :
    Gathers ds (read (c.map fun i => ds[i])) c.entries := by
  have hpart := Cluster.isPart_of_mem_byName hc
  refine ⟨?_, ?_, rfl, ?_, ?_⟩
  · rw [rows_read, Cluster.entries_map, List.map_map]
    rfl
  · exact (List.pairwise_lt_finRange _).sublist (Cluster.sublist_of_mem_byName hc)
  · intro i hi hunnamed
    have hsingle := hpart.alone i hi hunnamed
    obtain rfl : c.first = i := (List.cons.inj hsingle).1
    refine ⟨hsingle, ?_⟩
    show Document.givenAt "name" ds[c.first] = .null
    rw [givenAt_eq, label, if_neg hunnamed]
  · intro i hi hnamed j
    rw [hpart.together i hi hnamed j, shares_iff]
    exact (and_iff_right (List.mem_finRange j)).trans (and_iff_right hnamed)

/-- Rows whose names can be read are grouped, and their groups are a partition. -/
theorem exists_partitions (h : KeyRow.AreNameable ds) :
    ∃ named ps, (ds.map KeyRow.ofDocument).mapM KeyRow.named = .ok named ∧
      Partitions ds (ofRows named) ps := by
  refine ⟨_, (positions ds).map Cluster.entries, h.mapM_named, ?_⟩
  rw [ofRows_named, constraints_eq, List.map_map]
  constructor
  case gathers =>
    rw [List.forall₂_map_left_iff, List.forall₂_map_right_iff, List.forall₂_same]
    exact fun c hc => gathers_of_mem_positions hc
  case each_once => exact Cluster.flatten_byName_perm _ _
  case by_first =>
    rw [List.pairwise_map]
    refine (Cluster.byName_pairwise_first (List.pairwise_lt_finRange _)).imp fun hlt i hi j hj => ?_
    obtain rfl := Option.some.inj hi
    obtain rfl := Option.some.inj hj
    exact hlt
  case names_differ =>
    rw [List.pairwise_map]
    refine (Cluster.byName_pairwise_name _ _).imp fun hshares hnamed hsame => hshares ?_
    rw [← shares_label, ← givenAt_eq, ← givenAt_eq]
    exact shares_iff.2 ⟨hnamed, hsame⟩

def rowsInTurn : List Document :=
  [.record [("name", "b")], .record [], .record [("name", "a")], .record [("name", "b")],
    .record [("name", "")], .record [("name", "a")]]

/-- Later rows join groups that have others behind them. -/
theorem exists_partitions_rowsInTurn : KeyRow.AreNameable rowsInTurn ∧
    ∃ named ps, (rowsInTurn.map KeyRow.ofDocument).mapM KeyRow.named = .ok named ∧
      Partitions rowsInTurn (ofRows named) ps ∧
      (ofRows named).map (fun g => (g.name, g.rows.length)) =
        [(.text "b", 2), (.null, 1), (.text "a", 2), (.null, 1)] := by
  have hnameable : KeyRow.AreNameable rowsInTurn := by decide
  obtain ⟨named, ps, hnamed, hparts⟩ := exists_partitions hnameable
  refine ⟨hnameable, named, ps, hnamed, hparts, ?_⟩
  obtain rfl := Except.ok.inj hnamed
  decide

end KeyGroup
end EntityMapping
