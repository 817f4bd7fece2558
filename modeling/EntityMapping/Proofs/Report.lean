import EntityMapping.Proofs.Outcome
import EntityMapping.Report
import Mathlib.Data.List.Forall2

/-! # What a successful reading has read

Reading succeeds exactly when all its parts do, whatever they warn of. Lists are read entry by
entry, so that what is read runs in parallel to the entries, and so do the warnings.
-/
namespace EntityMapping

theorem Answer.forall₂_of_mapM {α β : Type} {f : α → Answer β} {l : List α} {bs : List β}
    (h : l.mapM f = .ok bs) : List.Forall₂ (fun a b => f a = .ok b) l bs := by
  induction l generalizing bs with
  | nil =>
    obtain rfl := Answer.pure_eq_ok.1 h
    exact .nil
  | cons a l ih =>
    rw [List.mapM_cons] at h
    obtain ⟨b, hb, h⟩ := Answer.bind_eq_ok.1 h
    obtain ⟨rest, hrest, h⟩ := Answer.bind_eq_ok.1 h
    obtain rfl := Answer.pure_eq_ok.1 h
    exact .cons hb (ih hrest)

@[simp] theorem Answer.ok_bind {α β : Type} (a : α) (f : α → Answer β) :
    ((.ok a : Answer α) >>= f) = f a := rfl

namespace Report
variable {α β : Type} {a : α} {b : β}

theorem bind_eq_ok {x : Report α} {f : α → Report β} :
    (x >>= f).result = .ok b ↔ ∃ a, x.result = .ok a ∧ (f a).result = .ok b := by
  rcases x with ⟨_ | a, ws⟩ <;> simp [bind, andThen]

theorem ok_bind (a : α) (ws : List Warning) (f : α → Report β) :
    ((⟨.ok a, ws⟩ : Report α) >>= f) = ⟨(f a).result, ws ++ (f a).warnings⟩ := rfl

theorem ok_nil_bind (a : α) (f : α → Report β) : ((⟨.ok a, []⟩ : Report α) >>= f) = f a := rfl

theorem ok_bind_pure (a : α) (ws : List Warning) (g : α → β) :
    ((⟨.ok a, ws⟩ : Report α) >>= fun a => pure (g a)) = ⟨.ok (g a), ws⟩ := by
  rw [ok_bind]
  exact congrArg _ (List.append_nil ws)

theorem error_bind (e : ReadError) (ws : List Warning) (f : α → Report β) :
    ((⟨.error e, ws⟩ : Report α) >>= f) = ⟨.error e, ws⟩ := rfl

@[simp] theorem pure_eq_ok {c : α} : (pure c : Report α).result = .ok a ↔ c = a := by
  simp [pure]

@[simp] theorem ofAnswer_eq_ok {x : Answer α} : (ofAnswer x).result = .ok a ↔ x = .ok a := by
  cases x <;> simp [ofAnswer, Except.mapError]

@[simp] theorem ofDefinition_eq_ok {x : Except DefinitionError α} :
    (ofDefinition x).result = .ok a ↔ x = .ok a := by
  cases x <;> simp [ofDefinition, Except.mapError]

theorem forall₂_of_mapM {f : α → Report β} {l : List α} {bs : List β}
    (h : (l.mapM f).result = .ok bs) : List.Forall₂ (fun a b => (f a).result = .ok b) l bs := by
  induction l generalizing bs with
  | nil =>
    obtain rfl := pure_eq_ok.1 h
    exact .nil
  | cons a l ih =>
    rw [List.mapM_cons] at h
    obtain ⟨b, hb, h⟩ := bind_eq_ok.1 h
    obtain ⟨rest, hrest, h⟩ := bind_eq_ok.1 h
    obtain rfl := pure_eq_ok.1 h
    exact .cons hb (ih hrest)

theorem forall₂_of_collect {read : α → Report (Option β)} {p : α → Prop} [DecidablePred p]
    {R : α → β → Prop} (hread : ∀ a o, (read a).result = .ok o →
      ¬ p a ∧ o = none ∨ p a ∧ ∃ b, o = some b ∧ R a b)
    {l : List α} {bs : List β} (h : (collect read l).result = .ok bs) :
    List.Forall₂ R (l.filter fun a => p a) bs := by
  induction l generalizing bs with
  | nil =>
    obtain rfl := pure_eq_ok.1 h
    exact .nil
  | cons a l ih =>
    obtain ⟨o, ho, h⟩ := bind_eq_ok.1 h
    obtain ⟨rest, hrest, h⟩ := bind_eq_ok.1 h
    obtain rfl := pure_eq_ok.1 h
    rcases hread a o ho with ⟨hp, rfl⟩ | ⟨hp, b, rfl, hb⟩
    · rw [List.filter_cons_of_neg (by simp [hp])]
      exact ih hrest
    · rw [List.filter_cons_of_pos (by simp [hp])]
      exact .cons hb (ih hrest)

theorem collect_map {γ : Type} {read : β → Report (Option γ)} {g : α → β} {l : List α} :
    collect read (l.map g) = collect (fun a => read (g a)) l := by
  induction l with
  | nil => rfl
  | cons a l ih => rw [List.map_cons, collect, collect, ih]

/-- Where each entry is either kept or left out with a warning, those that pass the test are kept
and the others are warned of. -/
theorem collect_eq {read : α → Report (Option β)} {p : α → Prop} [DecidablePred p]
    {R : α → β → Prop} {w : α → Warning} {l : List α}
    (hkept : ∀ a ∈ l, p a → ∃ b, read a = ⟨.ok (some b), []⟩ ∧ R a b)
    (hleft : ∀ a ∈ l, ¬ p a → read a = ⟨.ok none, [w a]⟩) :
    ∃ bs, collect read l = ⟨.ok bs, (l.filter fun a => ¬ p a).map w⟩ ∧
      List.Forall₂ R (l.filter fun a => p a) bs := by
  induction l with
  | nil => exact ⟨[], rfl, .nil⟩
  | cons a l ih =>
    obtain ⟨hkept, hkeptAll⟩ := List.forall_mem_cons.1 hkept
    obtain ⟨hleft, hleftAll⟩ := List.forall_mem_cons.1 hleft
    obtain ⟨bs, hbs, hparallel⟩ := ih hkeptAll hleftAll
    by_cases hp : p a
    · obtain ⟨b, hb, hr⟩ := hkept hp
      refine ⟨b :: bs, ?_, ?_⟩
      · rw [collect, hb, hbs, ok_bind, ok_bind_pure, List.filter_cons_of_neg (by simpa using hp)]
        rfl
      · rw [List.filter_cons_of_pos (by simpa using hp)]
        exact .cons hr hparallel
    · refine ⟨bs, ?_, ?_⟩
      · rw [collect, hleft hp, hbs, ok_bind, ok_bind_pure,
          List.filter_cons_of_pos (by simpa using hp)]
        rfl
      · rw [List.filter_cons_of_neg (by simpa using hp)]
        exact hparallel

/-- Entries are read one after another up to the first that fails; the warnings of all that were
read are kept. -/
theorem mapM_cases (f : α → Report β) (l : List α) :
    (∃ read, List.Forall₂ (fun a p => f a = ⟨.ok p.1, p.2⟩) l read ∧
      l.mapM f = ⟨.ok (read.map Prod.fst), read.flatMap Prod.snd⟩) ∨
    ∃ before a after read e ws, l = before ++ a :: after ∧
      List.Forall₂ (fun a p => f a = ⟨.ok p.1, p.2⟩) before read ∧ f a = ⟨.error e, ws⟩ ∧
      l.mapM f = ⟨.error e, read.flatMap Prod.snd ++ ws⟩ := by
  induction l with
  | nil => exact .inl ⟨[], .nil, rfl⟩
  | cons a l ih =>
    rcases ha : f a with ⟨e | b, ws⟩
    · refine .inr ⟨[], a, l, [], e, ws, rfl, .nil, ha, ?_⟩
      rw [List.mapM_cons, ha]
      rfl
    · rcases ih with ⟨read, hread, heq⟩ | ⟨before, c, after, read, e, vs, rfl, hread, hc, heq⟩
      · refine .inl ⟨(b, ws) :: read, .cons ha hread, ?_⟩
        rw [List.mapM_cons, ha, heq, ok_bind, ok_bind_pure]
        rfl
      · refine .inr ⟨a :: before, c, after, (b, ws) :: read, e, vs, rfl, .cons ha hread, hc, ?_⟩
        rw [List.mapM_cons, ha, heq, ok_bind, error_bind, List.flatMap_cons, List.append_assoc]

/-- The reading ends with a value and with warnings of which a property holds, or with a broken
rule of which another one holds. -/
def Ends (x : Report α) (P : α → List Warning → Prop) (E : DefinitionError → Prop) : Prop :=
  (∃ a ws, x = ⟨.ok a, ws⟩ ∧ P a ws) ∨ ∃ e ws, x = ⟨.error (.definition e), ws⟩ ∧ E e

section
variable {P : α → List Warning → Prop} {Q : β → List Warning → Prop} {E : DefinitionError → Prop}
  {x : Report α}

theorem ends_pure (h : P a []) : Ends (pure a) P E := .inl ⟨a, [], rfl, h⟩

theorem ends_error {e : DefinitionError} (h : E e) : Ends (error (.definition e)) P E :=
  .inr ⟨e, [], rfl, h⟩

theorem ends_ofDefinition {x : Except DefinitionError α} (hok : ∀ a, x = .ok a → P a [])
    (herror : ∀ e, x = .error e → E e) : (ofDefinition x).Ends P E := by
  cases x with
  | ok a => exact .inl ⟨a, [], rfl, hok a rfl⟩
  | error e => exact .inr ⟨e, [], rfl, herror e rfl⟩

theorem ends_warn {P : Unit → List Warning → Prop} {w : Warning} (hw : ∃ m, w.message = .ok m)
    (h : P () [w]) : (warn w).Ends P E := by
  obtain ⟨m, hm⟩ := hw
  exact .inl ⟨(), [w], by rw [warn, hm], h⟩

theorem Ends.mono {P' : α → List Warning → Prop} (h : x.Ends P E)
    (hP : ∀ a ws, x.result = .ok a → P a ws → P' a ws) : x.Ends P' E := by
  rcases h with ⟨a, ws, rfl, hp⟩ | ⟨e, ws, rfl, he⟩
  · exact .inl ⟨a, ws, rfl, hP a ws rfl hp⟩
  · exact .inr ⟨e, ws, rfl, he⟩

theorem Ends.imp_error {E' : DefinitionError → Prop} (h : x.Ends P E) (hE : ∀ e, E e → E' e) :
    x.Ends P E' := by
  rcases h with h | ⟨e, ws, hx, he⟩
  · exact .inl h
  · exact .inr ⟨e, ws, hx, hE e he⟩

theorem Ends.bind {f : α → Report β} (h : x.Ends P E)
    (hf : ∀ a ws, P a ws → (f a).Ends (fun b vs => Q b (ws ++ vs)) E) : Ends (x >>= f) Q E := by
  rcases h with ⟨a, ws, rfl, hp⟩ | ⟨e, ws, rfl, he⟩
  · rcases hf a ws hp with ⟨b, vs, hb, hq⟩ | ⟨e, vs, he, herror⟩
    · exact .inl ⟨b, ws ++ vs, by simp [Bind.bind, andThen, hb], hq⟩
    · exact .inr ⟨e, ws ++ vs, by simp [Bind.bind, andThen, he], herror⟩
  · exact .inr ⟨e, ws, rfl, he⟩

@[simp] theorem ofAnswer_ok_bind (a : α) (f : α → Report β) :
    (ofAnswer (.ok a) >>= f) = f a := rfl

@[simp] theorem ofDefinition_ok_bind (a : α) (f : α → Report β) :
    (ofDefinition (.ok a) >>= f) = f a := rfl

end

section
variable {w : α → List Warning} {E : DefinitionError → Prop} {l : List α}

theorem ends_mapM {f : α → Report β} {R : α → β → Prop}
    (h : ∀ a ∈ l, (f a).Ends (fun b ws => ws = w a ∧ R a b) E) :
    (l.mapM f).Ends (fun bs ws => ws = l.flatMap w ∧ List.Forall₂ R l bs) E := by
  induction l with
  | nil => exact ends_pure ⟨rfl, .nil⟩
  | cons a l ih =>
    obtain ⟨ha, hl⟩ := List.forall_mem_cons.1 h
    rw [List.mapM_cons]
    refine ha.bind fun b ws ⟨hws, hb⟩ => (ih hl).bind fun bs vs ⟨hvs, hbs⟩ => ends_pure ?_
    rw [List.append_nil, hws, hvs]
    exact ⟨rfl, .cons hb hbs⟩

theorem ends_collect {read : α → Report (Option β)} {R : β → Prop}
    (h : ∀ a ∈ l, (read a).Ends (fun o ws => ws = w a ∧ ∀ b ∈ o, R b) E) :
    (collect read l).Ends (fun bs ws => ws = l.flatMap w ∧ ∀ b ∈ bs, R b) E := by
  induction l with
  | nil => exact ends_pure ⟨rfl, nofun⟩
  | cons a l ih =>
    obtain ⟨ha, hl⟩ := List.forall_mem_cons.1 h
    refine ha.bind fun o ws ⟨hws, ho⟩ => (ih hl).bind fun bs vs ⟨hvs, hbs⟩ => ends_pure ?_
    rw [List.append_nil, hws, hvs]
    refine ⟨rfl, fun b hb => ?_⟩
    rcases List.mem_append.1 hb with hb | hb
    · exact ho b (Option.mem_toList.1 hb)
    · exact hbs b hb

end

end Report
end EntityMapping
