import EntityMapping.Proofs.Derivation.ColumnProperty
import EntityMapping.Proofs.Relational.Typed

/-! # The search for a free name ends

A name in use is tried again with one number after the other. All attempts are different, and each
that fails is a name in use, so that no search is longer than there are names in use. It ends with
the first free name, under which the entity takes a property of any kind that it still accepts.
-/
namespace EntityMapping
namespace Naming

variable {taken : List Name} {base m n : Name} {k l : ℕ}

/-- The name that is tried after some steps: the base, then its numbers from one on. -/
def attempt (base : Name) : ℕ → Name
  | 0 => base
  | k + 1 => numbered base (k + 1)

theorem attempt_key_injective (base : Name) :
    Function.Injective fun k => (attempt base k).key := by
  intro j k h
  cases j with
  | zero =>
    cases k with
    | zero => rfl
    | succ k => exact absurd h.symm (numbered_ne_key base (k + 1))
  | succ j =>
    cases k with
    | zero => exact absurd h (numbered_ne_key base (j + 1))
    | succ k => exact numbered_injective base h

/-- The search has come to a name in a number of steps. It goes on to the next number as long as
the name is in use. -/
inductive Tries (taken : List Name) (base : Name) : ℕ → Name → Prop
  | start : Tries taken base 0 base
  | next {k : ℕ} {n : Name} (before : Tries taken base k n) (inUse : isTaken taken n = true) :
      Tries taken base (k + 1) (numbered base (k + 1))

theorem Tries.eq_attempt (h : Tries taken base k n) : n = attempt base k := by
  cases h with
  | start => rfl
  | next => rfl

theorem Tries.isTaken_attempt (h : Tries taken base k n) :
    ∀ j < k, isTaken taken (attempt base j) = true := by
  induction h with
  | start => exact nofun
  | next before inUse ih =>
    intro j hj
    rcases Nat.lt_succ_iff_lt_or_eq.1 hj with hlt | rfl
    · exact ih j hlt
    · rwa [← before.eq_attempt]

theorem tries_attempt (h : ∀ j < k, isTaken taken (attempt base j) = true) :
    Tries taken base k (attempt base k) := by
  induction k with
  | zero => exact .start
  | succ k ih => exact .next (ih fun j hj => h j (hj.trans k.lt_succ_self)) (h k k.lt_succ_self)

/-- A search has no more steps than there are different names in use: every step but the last has
come to one of them, and to each at most once. -/
theorem Tries.steps_le (h : Tries taken base k n) :
    k ≤ (taken.map Document.key).toFinset.card := by
  have hcard : ((Finset.range k).image fun j => (attempt base j).key).card = k := by
    rw [Finset.card_image_of_injective _ (attempt_key_injective base), Finset.card_range]
  have hsub : ((Finset.range k).image fun j => (attempt base j).key) ⊆
      (taken.map Document.key).toFinset := by
    intro x hx
    obtain ⟨j, hj, rfl⟩ := Finset.mem_image.1 hx
    have hused := h.isTaken_attempt j (Finset.mem_range.1 hj)
    exact List.mem_toFinset.2 (isTaken_iff.1 hused)
  calc k = _ := hcard.symm
    _ ≤ _ := Finset.card_le_card hsub

theorem Tries.unique (h : Tries taken base k n) (hn : isTaken taken n = false)
    (h' : Tries taken base l m) (hm : isTaken taken m = false) : n = m := by
  have hstop : ∀ {i j : ℕ} {a b : Name}, Tries taken base i a → isTaken taken a = false →
      Tries taken base j b → ¬ i < j := by
    intro i j a b ha hfree hb hij
    have hused := hb.isTaken_attempt i hij
    rw [← ha.eq_attempt, hfree] at hused
    cases hused
  have hkl : k = l := Nat.le_antisymm (Nat.not_lt.1 (hstop h' hm h)) (Nat.not_lt.1 (hstop h hn h'))
  rw [h.eq_attempt, h'.eq_attempt, hkl]

theorem exists_tries_fresh (taken : List Name) (base : Name) :
    ∃ k, Tries taken base k (fresh taken base) := by
  rcases fresh_isLeastFree taken base with ⟨_, h⟩ | ⟨hbase, k, hpos, h, _, hless⟩
  · exact ⟨0, h.symm ▸ .start⟩
  · obtain ⟨k, rfl⟩ : ∃ i, k = i + 1 := Nat.exists_eq_succ_of_ne_zero hpos.ne'
    refine ⟨k + 1, h.symm ▸ tries_attempt (k := k + 1) fun j hj => ?_⟩
    cases j with
    | zero => exact hbase
    | succ j => exact hless (j + 1) j.succ_pos hj

theorem tries_free_iff :
    (∃ k, Tries taken base k n ∧ isTaken taken n = false) ↔ n = fresh taken base := by
  obtain ⟨k, hk⟩ := exists_tries_fresh taken base
  constructor
  · rintro ⟨l, hl, hfree⟩
    exact hl.unique hfree hk (isTaken_fresh taken base)
  · rintro rfl
    exact ⟨k, hk, isTaken_fresh taken base⟩

end Naming

namespace Entity

/-- The search for a name on the entity ends with the first free one, after at most as many steps as
the entity has different names, and the entity takes a property under it. -/
structure FindsName (e : Entity) (base n : Name) : Prop where
  found : Naming.freshName e.names base = .ok n
  steps_le : ∀ k m, Naming.Tries e.names base k m → k ≤ (e.names.map Document.key).toFinset.card
  ends_iff : ∀ m,
    (∃ k, Naming.Tries e.names base k m ∧ Naming.isTaken e.names m = false) ↔ m = n
  isLeastFree : Naming.IsLeastFree e.names base n
  accepts : ∀ p : Property, p.name = n → (e.isSealed = true → p.kind = .collection) →
    e.add p = .ok (e.extend [p])

/-- For every name that can be looked up a name on the entity is found. -/
theorem exists_findsName {e : Entity} (he : e.HasPlainNames) {base : Name} (hb : base.isPlain) :
    ∃ n, e.FindsName base n := by
  refine ⟨Naming.fresh e.names base, ?_⟩
  constructor
  case found => exact Naming.freshName_eq_ok.2 ⟨he, hb, rfl⟩
  case steps_le => exact fun k m h => h.steps_le
  case ends_iff => exact fun m => Naming.tries_free_iff
  case isLeastFree => exact Naming.fresh_isLeastFree e.names base
  case accepts =>
    intro p hname hkind
    refine add_eq_ok.2 ⟨hkind, ?_, rfl⟩
    rw [hname]
    exact Naming.isTaken_fresh e.names base

def crowded : Entity where
  name := "customers"
  shortName := "customers"
  table := .customers
  tableId := { name := "customers" }
  identifier := { kind := .simple, properties := [{ name := "id" }], name := "id" }
  properties := [{ name := "id_1" }, { name := "id_3" }, { name := "id_1_1" }]
  isSealed := true

/-- The first number that is free stands between two that are not. -/
theorem exists_findsName_crowded : crowded.HasPlainNames ∧ (Document.text "id").isPlain ∧
    crowded.FindsName "id" "id_2" := by
  have hplain : crowded.HasPlainNames := by
    change ∀ n ∈ crowded.names, n.isPlain
    decide
  have hbase : (Document.text "id").isPlain := rfl
  obtain ⟨n, hn⟩ := exists_findsName hplain hbase
  have hfound : Naming.freshName crowded.names "id" = .ok "id_2" := by decide
  obtain rfl := Except.ok.inj (hn.found.symm.trans hfound)
  exact ⟨hplain, hbase, hn⟩

end Entity
end EntityMapping
