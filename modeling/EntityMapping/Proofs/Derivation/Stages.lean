import EntityMapping.Derivation.TableBinding
import EntityMapping.Proofs.Outcome

/-! # No table is held up

A table moves on behind every step of its own, always to the stage that is next. So none of these
moves is refused, and both passes do what they would do without any stages.
-/
namespace EntityMapping

variable {c : Convention} {s : Settings} {schema : Schema}

def TableBinding.finished (b : TableBinding) : TableBinding := { b with stage := .collecting }

/-- The first four steps: identifier, version, references and scalars. -/
def Draft.complete (c : Convention) (s : Settings) (schema : Schema) (d : Draft) :
    Outcome Draft Unit :=
  (((d.identify c s).andThen fun _ d => d.addVersionOf c).andThen fun _ d =>
    d.addReferencesOf c s schema).andThen fun _ d => (d.addScalarsOf c).map fun _ => ()

theorem Draft.fill_eq {b : TableBinding} (h : b.stage = .normalized) (d : Draft) :
    d.fill c s schema b =
      (d.complete c s schema).map fun () => { b with stage := .scalarsBound } := by
  simp only [fill, complete, TableBinding.advance, h, Stage.next?, if_true, Outcome.granted_ok,
    Outcome.andThen_assoc, Outcome.andThen_map, Outcome.map_map, Outcome.andThen_done]

namespace Registry

/-- The first pass over a table, without the stages. -/
theorem bind_eq (t : Table) (r : Registry) : r.bind c s schema t =
    .ask (Entity.blank c s t) r fun e =>
    let o := Draft.complete c s schema ⟨e, {}⟩
    match o.answer with
    | .error refusal => ⟨.error refusal, r, o.warnings⟩
    | .ok () => match r.enter o.state.entity with
      | .error refusal => ⟨.error refusal, r, o.warnings⟩
      | .ok r => ⟨.ok {
          table := t
          stage := .registered
          tableId := some (s.normalize t.id)
          entity := some o.state.entity.name }, r, o.warnings⟩ := by
  simp only [bind, TableBinding.advance, Stage.next?, if_true, Outcome.granted_ok]
  congr 1
  funext e
  rw [Draft.fill_eq rfl]
  rcases Draft.complete c s schema ⟨e, {}⟩ with ⟨_ | _, d, ws⟩
  · rfl
  · simp only [Outcome.map, Except.map]
    cases r.enter d.entity with
    | error _ => rfl
    | ok r => simp [Outcome.done, Outcome.after]

/-- The second pass over a table, without the stage behind it. -/
theorem collect_eq (x : ReferenceIndex) (b : TableBinding) (r : Registry) : r.collect c x b =
    if b.stage ≠ .registered then .refused (.notRegistered b.table.id b.stage) r
    else match b.entity.bind r.get? with
    | none => .refused (.unanswered .notRecord) r
    | some e => (r.addCollectionsOf c x e).map (·, b.finished) := by
  unfold collect
  split
  · rfl
  · rename_i hstage
    have hregistered : b.stage = .registered := Decidable.not_not.1 hstage
    simp only [TableBinding.advance, hregistered, Stage.next?, if_true, Outcome.granted_ok,
      Outcome.andThen_done]
    rfl

theorem collect_of_registered {x : ReferenceIndex} {b : TableBinding} {r : Registry} {e : Entity}
    (hstage : b.stage = .registered) (hget : b.entity.bind r.get? = some e) :
    r.collect c x b = (r.addCollectionsOf c x e).map (·, b.finished) := by
  rw [collect_eq, if_neg (Decidable.not_not.2 hstage), hget]

theorem collect_eq_ok_iff {x : ReferenceIndex} {b : TableBinding} {r r' : Registry}
    {a : List Property × TableBinding} {ws : List Warning} : r.collect c x b = ⟨.ok a, r', ws⟩ ↔
      b.stage = .registered ∧ ∃ e, b.entity.bind r.get? = some e ∧
        r.addCollectionsOf c x e = ⟨.ok a.1, r', ws⟩ ∧ a.2 = b.finished := by
  rw [collect_eq]
  constructor
  · intro h
    split at h
    · exact absurd h Outcome.refused_ne_ok
    · rename_i hstage
      refine ⟨Decidable.not_not.1 hstage, ?_⟩
      split at h
      · exact absurd h Outcome.refused_ne_ok
      · rename_i e hget
        obtain ⟨ps, hps, rfl⟩ := Outcome.map_eq_ok.1 h
        exact ⟨e, hget, hps, rfl⟩
  · rintro ⟨hstage, e, hget, h, hb⟩
    rw [if_neg (Decidable.not_not.2 hstage), hget]
    exact Outcome.map_eq_ok.2 ⟨a.1, h, by rw [← hb]⟩

end Registry
end EntityMapping
