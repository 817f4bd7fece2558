import EntityMapping.Description.KeyGroup
import EntityMapping.Proofs.Outcome
import Mathlib.Data.List.Induction

/-! # How foreign key rows are grouped

The first of some rows takes along the later ones of its name, and what is left is clustered in the
same way. Placing one row after the other comes to the same groups.
-/
namespace EntityMapping

namespace Document

theorem truthy_key (d : Document) : d.key.truthy = d.truthy := by
  cases d with
  | plain v => cases v with
    | bool b => cases b <;> rfl
    | _ => rfl
  | list items => cases items <;> rfl
  | record fields => cases fields <;> rfl

variable {a b c : Document}

theorem truthy_of_same (h : a.same b) (ha : a.truthy) : b.truthy := by
  rwa [← truthy_key, ← same_iff.1 h, truthy_key]

/-- Only a name that is not empty is shared. -/
def shares (a b : Name) : Bool := a.truthy && a.same b

theorem shares_iff : a.shares b ↔ a.truthy ∧ a.same b := Bool.and_eq_true_iff

theorem shares_self (h : a.truthy) : a.shares a := shares_iff.2 ⟨h, same_self a⟩

theorem shares_symm (h : a.shares b) : b.shares a := by
  obtain ⟨ha, hsame⟩ := shares_iff.1 h
  exact shares_iff.2 ⟨truthy_of_same hsame ha, same_comm a b ▸ hsame⟩

theorem shares_trans (h : a.shares b) (h' : b.shares c) : a.shares c := by
  obtain ⟨ha, hsame⟩ := shares_iff.1 h
  obtain ⟨_, hsame'⟩ := shares_iff.1 h'
  exact shares_iff.2 ⟨ha, same_iff.2 ((same_iff.1 hsame).trans (same_iff.1 hsame'))⟩

theorem shares_congr (h : a.shares b) : a.shares = b.shares := by
  funext c
  rw [Bool.eq_iff_iff]
  exact ⟨shares_trans (shares_symm h), shares_trans h⟩

theorem same_eq_false (ha : a.truthy) (hb : ¬ b.truthy) : a.same b = false :=
  Bool.eq_false_iff.2 fun h => hb (truthy_of_same h ha)

def label (a : Name) : Name := if a.truthy then a else .null

theorem label_same (h : b.truthy) : a.label.same b = a.shares b := by
  unfold label shares
  split
  · rename_i ha
    rw [ha, Bool.true_and]
  · rename_i ha
    rw [Bool.not_eq_true] at ha
    rw [ha, Bool.false_and, same_comm]
    exact same_eq_false h (by decide)

end Document

/-- A first entry and the later ones that are put together with it. -/
structure Cluster (α : Type) where
  first : α
  rest : List α

namespace Cluster
variable {α β : Type}

def entries (c : Cluster α) : List α := c.first :: c.rest

def map (f : α → β) (c : Cluster α) : Cluster β := ⟨f c.first, c.rest.map f⟩

theorem entries_map (f : α → β) (c : Cluster α) : (c.map f).entries = c.entries.map f := rfl

def others (name : α → Name) (a : α) (as : List α) : List α :=
  as.filter fun b => !(name a).shares (name b)

/-- The entries that share a name are put together, and one without a name stays alone. -/
def byName (name : α → Name) : List α → List (Cluster α)
  | [] => []
  | a :: as => ⟨a, as.filter fun b => (name a).shares (name b)⟩ :: byName name (others name a as)
termination_by as => as.length
decreasing_by exact Nat.lt_succ_of_le (List.length_filter_le _ _)

theorem byName_map (name : β → Name) (f : α → β) (as : List α) :
    byName name (as.map f) = (byName (fun a => name (f a)) as).map (map f) := by
  fun_induction byName (fun a => name (f a)) as with
  | case1 => rw [List.map_nil, byName, List.map_nil]
  | case2 a as ih =>
    have hothers : others name (f a) (as.map f) =
        (others (fun a => name (f a)) a as).map f := List.filter_map
    rw [List.map_cons, byName, hothers, ih, List.filter_map]
    rfl

theorem byName_congr {name name' : α → Name}
    (h : ∀ a b, (name a).shares (name b) = (name' a).shares (name' b)) (as : List α) :
    byName name as = byName name' as := by
  fun_induction byName name as with
  | case1 => rw [byName]
  | case2 a as ih =>
    rw [byName, ih]
    simp only [others, h]

theorem mem_of_mem_byName {name : α → Name} {as : List α} {c : Cluster α} (hc : c ∈ byName name as)
    {a : α} (ha : a ∈ c.entries) : a ∈ as := by
  fun_induction byName name as with
  | case1 => cases hc
  | case2 b as ih =>
    rcases List.mem_cons.1 hc with rfl | hc
    · rcases List.mem_cons.1 ha with rfl | ha
      · exact List.mem_cons_self
      · exact List.mem_cons_of_mem _ (List.mem_filter.1 ha).1
    · exact List.mem_cons_of_mem _ (List.mem_filter.1 (ih hc)).1

end Cluster

namespace KeyGroup
open Cluster

def ofCluster (c : Cluster (Name × KeyRow)) : KeyGroup where
  name := c.first.1.label
  first := c.first.2
  rest := c.rest.map Prod.snd

/-- A further row joins the group whose name it shares, or starts one. -/
theorem ofCluster_concat (rows : List (Name × KeyRow)) (row : Name × KeyRow) :
    (byName Prod.fst (rows ++ [row])).map ofCluster =
      addRow ((byName Prod.fst rows).map ofCluster) row := by
  fun_induction byName Prod.fst rows with
  | case1 =>
    unfold addRow
    split <;> simp_all [byName, others, place, ofCluster, Document.label]
  | case2 first rows ih =>
    rw [List.cons_append, byName, List.filter_append]
    cases hshares : first.1.shares row.1 with
    | true =>
      have hothers : others Prod.fst first (rows ++ [row]) = others Prod.fst first rows := by
        simp [others, hshares]
      have hrow : row.1.truthy := (Document.shares_iff.1 (Document.shares_symm hshares)).1
      rw [hothers]
      simp [addRow, place, ofCluster, hrow, Document.label_same, hshares]
    | false =>
      have hothers : others Prod.fst first (rows ++ [row]) =
          others Prod.fst first rows ++ [row] := by
        simp [others, hshares]
      rw [hothers, List.map_cons, ih]
      unfold addRow
      split
      · rename_i hrow
        simp [place, ofCluster, Document.label_same hrow, hshares]
      · simp [ofCluster, hshares]

/-- Placing the rows one by one puts those together that share a name. -/
theorem ofRows_eq_byName (rows : List (Name × KeyRow)) :
    ofRows rows = (byName Prod.fst rows).map ofCluster := by
  induction rows using List.reverseRecOn with
  | nil => simp [ofRows, byName]
  | append_singleton rows row ih =>
    rw [ofCluster_concat, ← ih, ofRows, ofRows, List.foldl_append]
    rfl

end KeyGroup
end EntityMapping
