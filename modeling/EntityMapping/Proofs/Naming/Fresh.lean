import Mathlib
import EntityMapping.Naming.Composed
import EntityMapping.Proofs.Document

/-! # The name that is found is free

Of a taken name and its first numbered variants, as many as there are names in use, one is not in
use, because they are all different.
-/
namespace EntityMapping.Naming

theorem isTaken_iff {taken : List Name} {n : Name} :
    isTaken taken n = true ↔ n.key ∈ taken.map Document.key := by
  simp only [isTaken, List.any_eq_true, Document.same_iff, List.mem_map]
  exact ⟨fun ⟨m, hm, h⟩ => ⟨m, hm, h.symm⟩, fun ⟨m, hm, h⟩ => ⟨m, hm, h.symm⟩⟩

theorem isTaken_eq_false_iff {taken : List Name} {n : Name} :
    isTaken taken n = false ↔ n.key ∉ taken.map Document.key := by
  rw [← isTaken_iff, Bool.not_eq_true]

@[simp] theorem key_numbered (base : Name) (k : ℕ) : (numbered base k).key = numbered base k := rfl

theorem numbered_injective (base : Name) : Function.Injective (numbered base) := by
  intro j k h
  have hs : base.shown ++ "_" ++ Nat.repr j = base.shown ++ "_" ++ Nat.repr k := by
    simpa [numbered] using h
  exact Nat.repr_inj.1 ((String.append_right_inj _).1 hs)

theorem numbered_ne_key (base : Name) (k : ℕ) : numbered base k ≠ base.key := by
  intro h
  have hb : base = .text (base.shown ++ "_" ++ Nat.repr k) := Document.key_eq_text.1 h.symm
  have hs : base.shown = base.shown ++ "_" ++ Nat.repr k := congrArg Document.shown hb
  have hl := congrArg String.length hs
  simp only [String.length_append] at hl
  have h1 : "_".length = 1 := rfl
  omega

/-- The names that are tried for a name that is taken: the first numbers, one for each name. -/
def candidates (taken : List Name) (base : Name) : List Name :=
  (List.range taken.length).map fun k => numbered base (k + 1)

theorem candidates_nodup (taken : List Name) (base : Name) : (candidates taken base).Nodup := by
  refine List.Nodup.map ?_ List.nodup_range
  intro j k h
  have := numbered_injective base h
  omega

theorem exists_free_candidate {taken : List Name} {base : Name} (hb : isTaken taken base = true) :
    ∃ n ∈ candidates taken base, isTaken taken n = false := by
  by_contra hall
  push Not at hall
  have hsub : base.key :: candidates taken base ⊆ taken.map Document.key := by
    intro n hn
    rcases List.mem_cons.1 hn with rfl | hn
    · exact isTaken_iff.1 hb
    · have ht := isTaken_iff.1 (by simpa using hall n hn)
      obtain ⟨k, _, rfl⟩ := List.mem_map.1 hn
      simpa using ht
  have hnd : (base.key :: candidates taken base).Nodup := by
    refine List.nodup_cons.2 ⟨?_, candidates_nodup taken base⟩
    intro hm
    obtain ⟨k, _, hk⟩ := List.mem_map.1 hm
    exact numbered_ne_key base _ hk
  have hle := (hnd.subperm hsub).length_le
  simp [candidates] at hle

/-- The name itself if it is free, else the one with the least number, from one on, that is. -/
def IsLeastFree (taken : List Name) (base n : Name) : Prop :=
  isTaken taken base = false ∧ n = base ∨
    isTaken taken base = true ∧ ∃ k, 0 < k ∧ n = numbered base k ∧ isTaken taken n = false ∧
      ∀ j, 0 < j → j < k → isTaken taken (numbered base j) = true

theorem fresh_isLeastFree (taken : List Name) (base : Name) :
    IsLeastFree taken base (fresh taken base) := by
  unfold fresh
  split
  · rename_i hb
    obtain ⟨n, hn, hf⟩ := exists_free_candidate hb
    cases h : (candidates taken base).find? fun n => !isTaken taken n with
    | none => simpa [hf] using List.find?_eq_none.1 h n hn
    | some m =>
      obtain ⟨hm, k, hk, hkm, hbefore⟩ := List.find?_eq_some_iff_getElem.1 h
      have hnumber : ∀ j (hj : j < (candidates taken base).length),
          (candidates taken base)[j] = numbered base (j + 1) := by simp [candidates]
      simp only [candidates] at h
      rw [h, Option.getD_some]
      refine .inr ⟨hb, k + 1, k.succ_pos, hkm ▸ hnumber k hk, by simpa using hm,
        fun j hj hjk => ?_⟩
      have hless := hbefore (j - 1) (by omega)
      rwa [Bool.not_not, hnumber, Nat.sub_add_cancel hj] at hless
  · rename_i hb
    exact .inl ⟨by simpa using hb, rfl⟩

theorem isTaken_fresh (taken : List Name) (base : Name) :
    isTaken taken (fresh taken base) = false := by
  rcases fresh_isLeastFree taken base with ⟨hb, h⟩ | ⟨_, _, _, _, h, _⟩
  · rwa [h]
  · exact h

def IsVariant (base n : Name) : Prop := n = base ∨ ∃ k, n = numbered base k

theorem fresh_isVariant (taken : List Name) (base : Name) : IsVariant base (fresh taken base) := by
  rcases fresh_isLeastFree taken base with ⟨_, h⟩ | ⟨_, k, _, h, _⟩
  · exact .inl h
  · exact .inr ⟨k, h⟩

theorem fresh_eq_or_isText (taken : List Name) (base : Name) :
    fresh taken base = base ∨ (fresh taken base).IsText :=
  (fresh_isVariant taken base).imp_right fun ⟨_, hn⟩ => ⟨_, hn⟩

theorem fresh_isPlain {taken : List Name} {base : Name} (h : base.isPlain) :
    (fresh taken base).isPlain := by
  rcases fresh_eq_or_isText taken base with he | ht
  · rwa [he]
  · exact ht.isPlain

theorem freshName_eq_ok {taken : List Name} {base n : Name} :
    freshName taken base = .ok n ↔
      (∀ m ∈ taken, m.isPlain) ∧ base.isPlain ∧ n = fresh taken base := by
  unfold freshName
  split
  · rename_i h
    rw [Bool.and_eq_true, List.all_eq_true] at h
    simp only [Except.ok.injEq]
    exact ⟨fun he => ⟨h.1, h.2, he.symm⟩, fun he => he.2.2.symm⟩
  · rename_i h
    rw [Bool.and_eq_true, List.all_eq_true] at h
    exact ⟨nofun, fun he => absurd ⟨he.1, he.2.1⟩ h⟩

end EntityMapping.Naming
