import EntityMapping.Derivation.Draft

/-! # How a step ends

A step that is put together from others ends with an answer exactly when all of them do. Each
combinator is opened by one equivalence, so that a step is read off from front to back.
-/
namespace EntityMapping

theorem Answer.bind_eq_ok {α β : Type} {x : Answer α} {f : α → Answer β} {b : β} :
    (x >>= f) = .ok b ↔ ∃ a, x = .ok a ∧ f a = .ok b := by
  cases x <;> simp [bind, Except.bind]

@[simp] theorem Answer.pure_eq_ok {α : Type} {a b : α} : (pure a : Answer α) = .ok b ↔ a = b := by
  simp [pure, Except.pure]

def Answer.Gives {α : Type} (x : Answer α) (P : α → Prop) : Prop := ∃ a, x = .ok a ∧ P a

theorem Answer.Gives.bind {α β : Type} {x : Answer α} {f : α → Answer β} {P : α → Prop}
    {Q : β → Prop} (h : x.Gives P) (hf : ∀ a, P a → (f a).Gives Q) :
    Answer.Gives (x >>= f) Q := by
  obtain ⟨a, rfl, hp⟩ := h
  exact hf a hp

theorem Answer.Gives.of_eq_ok {α : Type} {x : Answer α} {P : α → Prop} (h : x.Gives P) {a : α}
    (ha : x = .ok a) : P a := by
  obtain ⟨b, hb, hp⟩ := h
  rwa [← Except.ok.inj (hb.symm.trans ha)]

theorem Answer.gives_pure {α : Type} {a : α} {P : α → Prop} (h : P a) :
    Answer.Gives (pure a) P := ⟨a, rfl, h⟩

/-- What is found by evaluating something that succeeds holds of its value. -/
theorem exists_ok_of_toOption_any {ε α : Type} {x : Except ε α} {P : α → Bool}
    (h : x.toOption.any P) : ∃ a, x = .ok a ∧ P a := by
  cases x with
  | error _ => simp [Except.toOption] at h
  | ok a => exact ⟨a, rfl, by simpa [Except.toOption] using h⟩

namespace Outcome
variable {σ α β : Type} {s t : σ} {ws : List Warning}

@[simp] theorem done_eq_ok {a b : α} :
    done a s = ⟨.ok b, t, ws⟩ ↔ a = b ∧ s = t ∧ ws = [] := by
  simp [done, eq_comm]

@[simp] theorem refused_ne_ok {r : Refusal} {b : α} : refused r s ≠ ⟨.ok b, t, ws⟩ := by
  simp [refused]

theorem exists_ok_of_answer_any {o : Outcome σ α} {P : α → Bool} (h : o.answer.toOption.any P) :
    ∃ a s ws, o = ⟨.ok a, s, ws⟩ ∧ P a := by
  obtain ⟨a, ha, hp⟩ := exists_ok_of_toOption_any h
  exact ⟨a, o.state, o.warnings, by rw [← ha], hp⟩

theorem after_eq_ok {vs : List Warning} {o : Outcome σ α} {b : α} :
    o.after vs = ⟨.ok b, t, ws⟩ ↔ ∃ us, o = ⟨.ok b, t, us⟩ ∧ ws = vs ++ us := by
  rcases o with ⟨answer, state, us⟩
  constructor
  · intro h
    simp only [after, mk.injEq] at h
    exact ⟨us, by simp [h.1, h.2.1], h.2.2.symm⟩
  · rintro ⟨us, h, rfl⟩
    simp_all [after]

theorem map_eq_ok {f : α → β} {o : Outcome σ α} {b : β} :
    o.map f = ⟨.ok b, t, ws⟩ ↔ ∃ a, o = ⟨.ok a, t, ws⟩ ∧ f a = b := by
  rcases o with ⟨_ | a, state, us⟩
  · simp [map, Except.map]
  · simp only [map, Except.map, mk.injEq, Except.ok.injEq]
    constructor
    · rintro ⟨h, hs, hw⟩
      exact ⟨a, ⟨rfl, hs, hw⟩, h⟩
    · rintro ⟨_, ⟨rfl, hs, hw⟩, h⟩
      exact ⟨h, hs, hw⟩

theorem andThen_eq_ok {o : Outcome σ α} {next : α → σ → Outcome σ β} {b : β} :
    o.andThen next = ⟨.ok b, t, ws⟩ ↔
      ∃ a s vs us, o = ⟨.ok a, s, vs⟩ ∧ next a s = ⟨.ok b, t, us⟩ ∧ ws = vs ++ us := by
  rcases o with ⟨_ | a, s, vs⟩
  · simp [andThen]
  · simp only [andThen, after_eq_ok, mk.injEq, Except.ok.injEq]
    constructor
    · rintro ⟨us, hn, hw⟩
      exact ⟨a, s, vs, us, ⟨rfl, rfl, rfl⟩, hn, hw⟩
    · rintro ⟨_, _, _, us, ⟨rfl, rfl, rfl⟩, hn, hw⟩
      exact ⟨us, hn, hw⟩

theorem ask_eq_ok {x : Answer α} {next : α → Outcome σ β} {b : β} :
    ask x s next = ⟨.ok b, t, ws⟩ ↔ ∃ a, x = .ok a ∧ next a = ⟨.ok b, t, ws⟩ := by
  cases x <;> simp [ask]

theorem warn_eq_ok {w : Warning} {next : Outcome σ α} {b : α} :
    warn w s next = ⟨.ok b, t, ws⟩ ↔
      (∃ m, w.message = .ok m) ∧ ∃ us, next = ⟨.ok b, t, us⟩ ∧ ws = w :: us := by
  simp only [warn, ask_eq_ok, after_eq_ok, List.singleton_append]
  exact ⟨fun ⟨m, hm, h⟩ => ⟨⟨m, hm⟩, h⟩, fun ⟨⟨m, hm⟩, h⟩ => ⟨m, hm, h⟩⟩

section
variable {r : Refusal} {o : Outcome σ α} {x : Answer α} {w : Warning}

@[simp] theorem answer_done {a : α} : (done a s).answer = .ok a := rfl

@[simp] theorem answer_refused : (refused r s : Outcome σ α).answer = .error r := rfl

theorem answer_map_eq_error {f : α → β} :
    (o.map f).answer = .error r ↔ o.answer = .error r := by
  rcases o with ⟨_ | a, _, _⟩ <;> simp [map, Except.map]

theorem answer_andThen_eq_error {next : α → σ → Outcome σ β} :
    (o.andThen next).answer = .error r ↔
      o.answer = .error r ∨ ∃ a, o.answer = .ok a ∧ (next a o.state).answer = .error r := by
  rcases o with ⟨_ | a, _, _⟩ <;> simp [andThen, after]

theorem answer_ask_eq_error {next : α → Outcome σ β} :
    (ask x s next).answer = .error r ↔ (∃ fault, x = .error fault ∧ r = .unanswered fault) ∨
      ∃ a, x = .ok a ∧ (next a).answer = .error r := by
  cases x <;> simp [ask, eq_comm]

theorem answer_warn_eq_error : (warn w s o).answer = .error r ↔
    (∃ fault, w.message = .error fault ∧ r = .unanswered fault) ∨
      (∃ m, w.message = .ok m) ∧ o.answer = .error r := by
  simp only [warn, answer_ask_eq_error, exists_and_right]
  rfl

end

theorem andThen_ok {a : α} {next : α → σ → Outcome σ β} :
    andThen ⟨.ok a, s, ws⟩ next = (next a s).after ws := rfl

theorem warn_of_message {w : Warning} {m : String} {next : Outcome σ α} (h : w.message = .ok m) :
    warn w s next = next.after [w] := by
  simp [warn, h]

@[simp] theorem answer_after (vs : List Warning) (o : Outcome σ α) :
    (o.after vs).answer = o.answer := rfl

@[simp] theorem state_after (vs : List Warning) (o : Outcome σ α) :
    (o.after vs).state = o.state := rfl

section
variable {γ : Type}

theorem andThen_assoc (o : Outcome σ α) (f : α → σ → Outcome σ β) (g : β → σ → Outcome σ γ) :
    (o.andThen f).andThen g = o.andThen fun a s => (f a s).andThen g := by
  rcases o with ⟨_ | a, s, ws⟩
  · rfl
  · simp only [andThen, after]
    split <;> simp

theorem map_map (o : Outcome σ α) (f : α → β) (g : β → γ) :
    (o.map f).map g = o.map fun a => g (f a) := by
  rcases o with ⟨_ | a, s, ws⟩ <;> rfl

theorem andThen_map (o : Outcome σ α) (f : α → σ → Outcome σ β) (g : β → γ) :
    (o.andThen f).map g = o.andThen fun a s => (f a s).map g := by
  rcases o with ⟨_ | a, s, ws⟩ <;> rfl

theorem andThen_done (o : Outcome σ α) (f : α → β) :
    (o.andThen fun a s => done (f a) s) = o.map f := by
  rcases o with ⟨_ | a, s, ws⟩ <;> simp [andThen, map, done, after, Except.map]

end

/-- The step ends with an answer and in a state of which a property holds. -/
def Reaches (o : Outcome σ α) (P : α → σ → Prop) : Prop :=
  ∃ a t ws, o = ⟨.ok a, t, ws⟩ ∧ P a t

section
variable {P : α → σ → Prop} {Q : β → σ → Prop} {o : Outcome σ α}

theorem reaches_done {a : α} (h : P a s) : (done a s).Reaches P := ⟨a, s, [], rfl, h⟩

theorem Reaches.map {f : α → β} (h : o.Reaches P) (hq : ∀ a t, P a t → Q (f a) t) :
    (o.map f).Reaches Q := by
  obtain ⟨a, t, ws, rfl, hp⟩ := h
  exact ⟨f a, t, ws, rfl, hq a t hp⟩

theorem Reaches.after {vs : List Warning} (h : o.Reaches P) : (o.after vs).Reaches P := by
  obtain ⟨a, t, ws, rfl, hp⟩ := h
  exact ⟨a, t, vs ++ ws, rfl, hp⟩

theorem Reaches.andThen {next : α → σ → Outcome σ β} (h : o.Reaches P)
    (hn : ∀ a t, P a t → (next a t).Reaches Q) : (o.andThen next).Reaches Q := by
  obtain ⟨a, t, ws, rfl, hp⟩ := h
  rw [andThen_ok]
  exact (hn a t hp).after

theorem reaches_ask {x : Answer β} {R : β → Prop} {next : β → Outcome σ α} (hx : x.Gives R)
    (h : ∀ b, R b → (next b).Reaches P) : (ask x s next).Reaches P := by
  obtain ⟨b, rfl, hr⟩ := hx
  exact h b hr

theorem reaches_warn {w : Warning} (hw : ∃ m, w.message = .ok m) (h : o.Reaches P) :
    (warn w s o).Reaches P := by
  obtain ⟨m, hm⟩ := hw
  rw [warn_of_message hm]
  exact h.after

end

/-- However the step ends, it leaves a state with a property behind and issues only warnings of some
kind. -/
structure Keeps (o : Outcome σ α) (P : σ → Prop) (Q : Warning → Prop) : Prop where
  state : P o.state
  warnings : ∀ w ∈ o.warnings, Q w

section
variable {P : σ → Prop} {Q : Warning → Prop} {o : Outcome σ α}

theorem keeps_done {a : α} (h : P s) : (done a s).Keeps P Q := ⟨h, nofun⟩

theorem keeps_refused {r : Refusal} (h : P s) : (refused r s : Outcome σ α).Keeps P Q := ⟨h, nofun⟩

theorem Keeps.map {f : α → β} (h : o.Keeps P Q) : (o.map f).Keeps P Q := ⟨h.state, h.warnings⟩

theorem Keeps.mono {P' : σ → Prop} {Q' : Warning → Prop} (h : o.Keeps P Q)
    (hP : ∀ s, P s → P' s) (hQ : ∀ w, Q w → Q' w) : o.Keeps P' Q' :=
  ⟨hP _ h.state, fun w hw => hQ w (h.warnings w hw)⟩

theorem Keeps.after {vs : List Warning} (h : o.Keeps P Q) (hvs : ∀ w ∈ vs, Q w) :
    (o.after vs).Keeps P Q := by
  refine ⟨h.state, fun w hw => ?_⟩
  rcases List.mem_append.1 hw with hw | hw
  · exact hvs w hw
  · exact h.warnings w hw

theorem Keeps.andThen {next : α → σ → Outcome σ β} (h : o.Keeps P Q)
    (hn : ∀ a t ws, o = ⟨.ok a, t, ws⟩ → P t → (next a t).Keeps P Q) :
    (o.andThen next).Keeps P Q := by
  rcases o with ⟨r | a, t, ws⟩
  · exact ⟨h.state, h.warnings⟩
  · rw [andThen_ok]
    exact (hn a t ws rfl h.state).after h.warnings

theorem keeps_ask {x : Answer β} {next : β → Outcome σ α} (hs : P s)
    (h : ∀ b, x = .ok b → (next b).Keeps P Q) : (ask x s next).Keeps P Q := by
  cases x with
  | error fault => exact keeps_refused hs
  | ok b => exact h b rfl

theorem keeps_warn {w : Warning} (hs : P s) (hw : Q w) (h : o.Keeps P Q) :
    (warn w s o).Keeps P Q :=
  keeps_ask hs fun _ _ => h.after (by simpa using hw)

end
end Outcome
end EntityMapping
