import Mathlib.Data.List.Forall2

/-! # Lists that run in parallel

What holds of every pair of two lists is carried over from the members of one to the members of the
other.
-/
namespace List

theorem exists_forall₂ {α β : Type} {R : α → β → Prop} {as : List α}
    (h : ∀ a ∈ as, ∃ b, R a b) : ∃ bs, Forall₂ R as bs := by
  induction as with
  | nil => exact ⟨[], .nil⟩
  | cons a as ih =>
    obtain ⟨b, hb⟩ := h a mem_cons_self
    obtain ⟨bs, hbs⟩ := ih fun a ha => h a (mem_cons_of_mem _ ha)
    exact ⟨b :: bs, .cons hb hbs⟩

namespace Forall₂

variable {α β γ : Type} {R : α → β → Prop} {as : List α} {bs : List β}

theorem exists_left (h : Forall₂ R as bs) {b : β} (hb : b ∈ bs) : ∃ a ∈ as, R a b := by
  induction h with
  | nil => cases hb
  | cons hab _ ih =>
    rcases mem_cons.1 hb with rfl | hb
    · exact ⟨_, mem_cons_self, hab⟩
    · obtain ⟨a, ha, hr⟩ := ih hb
      exact ⟨a, mem_cons_of_mem _ ha, hr⟩

theorem exists_right (h : Forall₂ R as bs) {a : α} (ha : a ∈ as) : ∃ b ∈ bs, R a b :=
  h.flip.exists_left ha

theorem map_eq_map {f : α → γ} {g : β → γ} (h : Forall₂ R as bs)
    (hfg : ∀ a b, R a b → f a = g b) : as.map f = bs.map g := by
  induction h with
  | nil => rfl
  | cons hab _ ih => rw [map_cons, map_cons, hfg _ _ hab, ih]

theorem map_eq {f : α → β} (h : Forall₂ R as bs) (hf : ∀ a b, R a b → f a = b) :
    as.map f = bs := by
  rw [h.map_eq_map (g := id) hf, map_id]

theorem eq_map {g : β → α} (h : Forall₂ R as bs) (hg : ∀ a b, R a b → a = g b) :
    as = bs.map g :=
  (h.flip.map_eq fun b a hab => (hg a b hab).symm).symm

theorem trans {S : β → γ → Prop} {T : α → γ → Prop} {cs : List γ} (h : Forall₂ R as bs)
    (h' : Forall₂ S bs cs) (ht : ∀ a b c, R a b → S b c → T a c) : Forall₂ T as cs := by
  induction h generalizing cs with
  | nil =>
    cases h'
    exact .nil
  | cons hab _ ih =>
    cases h' with
    | cons hbc hrest => exact .cons (ht _ _ _ hab hbc) (ih hrest)

theorem imp_of_mem {S : α → β → Prop} (h : Forall₂ R as bs)
    (hrs : ∀ a ∈ as, ∀ b ∈ bs, R a b → S a b) : Forall₂ S as bs := by
  induction h with
  | nil => exact .nil
  | cons hab _ ih =>
    exact .cons (hrs _ mem_cons_self _ mem_cons_self hab) (ih fun a ha b hb =>
      hrs a (mem_cons_of_mem _ ha) b (mem_cons_of_mem _ hb))

theorem of_append {as' : List α} (h : Forall₂ R (as ++ as') bs) :
    ∃ cs ds, bs = cs ++ ds ∧ Forall₂ R as cs ∧ Forall₂ R as' ds := by
  induction as generalizing bs with
  | nil => exact ⟨[], bs, rfl, .nil, h⟩
  | cons a as ih =>
    cases h with
    | cons hab hrest =>
      obtain ⟨cs, ds, rfl, hcs, hds⟩ := ih hrest
      exact ⟨_ :: cs, ds, rfl, .cons hab hcs, hds⟩

theorem flatMap_eq {g : β → List α} (h : Forall₂ R as bs) (hg : ∀ a b, R a b → g b = [a]) :
    bs.flatMap g = as := by
  induction h with
  | nil => rfl
  | cons hab _ ih => rw [flatMap_cons, hg _ _ hab, ih, singleton_append]

end Forall₂
end List
