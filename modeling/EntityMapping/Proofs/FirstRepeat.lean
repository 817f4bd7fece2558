import Mathlib.Data.List.Nodup

/-! # First repetitions

Reading a list from the front, either all entries have different images or there is a first one
whose image was seen before. The entries with the same image are then determined.
-/
namespace EntityMapping

variable {α β : Type} {g : α → β} {l : List α} {a b : α}

/-- The image of `b` is the first that repeats an earlier one, which is that of `a`. -/
def FirstRepeat (g : α → β) (l : List α) (a b : α) : Prop :=
  ∃ pre post, l = pre ++ b :: post ∧ (pre.map g).Nodup ∧ a ∈ pre ∧ g a = g b

theorem FirstRepeat.not_nodup (h : FirstRepeat g l a b) : ¬ (l.map g).Nodup := by
  obtain ⟨pre, post, rfl, _, ha, hab⟩ := h
  rw [List.map_append, List.map_cons]
  intro hn
  exact (List.nodup_append.1 hn).2.2 _ (List.mem_map_of_mem ha) _ List.mem_cons_self hab

theorem nodup_append_singleton {pre : List α} (hp : (pre.map g).Nodup)
    (hb : g b ∉ pre.map g) : ((pre ++ [b]).map g).Nodup := by
  rw [List.map_append]
  exact hp.append (List.nodup_singleton _) (by simpa using hb)

/-- Of two ways to split a list at an entry, the shorter one stops inside the other. -/
theorem append_singleton_prefix {pre post pre' post' : List α} {b' : α}
    (h : pre ++ b :: post = pre' ++ b' :: post') (hlt : pre.length < pre'.length) :
    pre ++ [b] <+: pre' := by
  have hleft : pre ++ [b] <+: pre ++ b :: post := ⟨post, by simp⟩
  have hright : pre' <+: pre ++ b :: post := ⟨b' :: post', h.symm⟩
  refine List.prefix_of_prefix_length_le hleft hright ?_
  rw [List.length_append, List.length_singleton]
  omega

theorem FirstRepeat.length_le {pre post pre' post' : List α} {b' : α}
    (h : pre ++ b :: post = pre' ++ b' :: post') (hp' : (pre'.map g).Nodup) (ha : a ∈ pre)
    (hab : g a = g b) : pre'.length ≤ pre.length := by
  by_contra hlt
  have hpre := append_singleton_prefix h (Nat.lt_of_not_le hlt)
  exact FirstRepeat.not_nodup ⟨pre, [], rfl, hp'.sublist (((List.prefix_append pre [b]).trans
    hpre).sublist.map g), ha, hab⟩ (hp'.sublist (hpre.sublist.map g))

theorem FirstRepeat.unique {a' b' : α} (h : FirstRepeat g l a b) (h' : FirstRepeat g l a' b') :
    a = a' ∧ b = b' := by
  obtain ⟨pre, post, rfl, hp, ha, hab⟩ := h
  obtain ⟨pre', post', heq, hp', ha', hab'⟩ := h'
  have hlength : pre.length = pre'.length :=
    Nat.le_antisymm (FirstRepeat.length_le heq.symm hp ha' hab')
      (FirstRepeat.length_le heq hp' ha hab)
  obtain ⟨rfl, hrest⟩ := List.append_inj heq hlength
  obtain ⟨rfl, _⟩ := List.cons.inj hrest
  exact ⟨List.inj_on_of_nodup_map hp ha ha' (hab.trans hab'.symm), rfl⟩

end EntityMapping
