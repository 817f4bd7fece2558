import EntityMapping.Entity.Basic
import EntityMapping.Warning

/-! # Drafts of an entity

A draft is an entity in the making with the columns that are already claimed. A step on a draft
ends with an answer or a refusal; in both cases the draft holds what was done before.
-/
namespace EntityMapping

/-- The claimed columns in the order of their claims; a column is recognised by its name. -/
structure Claims where
  columns : List Column := []
deriving DecidableEq

namespace Claims

def has (s : Claims) (c : Column) : Bool := s.columns.any fun d => d.name.same c.name

def hasAll (s : Claims) (cs : List Column) : Bool := cs.all s.has

def hasAny (s : Claims) (cs : List Column) : Bool := cs.any s.has

def insert (s : Claims) (c : Column) : Claims := if s.has c then s else ⟨s.columns ++ [c]⟩

def insertAll (s : Claims) (cs : List Column) : Claims := cs.foldl insert s

theorem has_congr (s : Claims) {c d : Column} (h : c.name.same d.name) : s.has c = s.has d := by
  simp only [has, Document.same, Document.same_iff.1 h]

theorem has_insert (s : Claims) (c d : Column) :
    (s.insert c).has d = (c.name.same d.name || s.has d) := by
  unfold insert
  split
  · by_cases h : c.name.same d.name
    · simp_all [has_congr s h]
    · simp [h]
  · simp [has, Bool.or_comm]

theorem has_insertAll (s : Claims) (cs : List Column) (d : Column) :
    (s.insertAll cs).has d = (cs.any (fun c => c.name.same d.name) || s.has d) := by
  induction cs generalizing s with
  | nil => simp [insertAll]
  | cons c cs ih =>
    have step : s.insertAll (c :: cs) = (s.insert c).insertAll cs := rfl
    rw [step, ih, has_insert, List.any_cons]
    cases c.name.same d.name <;> simp

def claim? (s : Claims) (c : Column) : Option Claims :=
  if s.has c then none else some (s.insert c)

end Claims

structure Draft where
  entity : Entity
  claims : Claims := {}
deriving DecidableEq

/-- The end of a step: its answer, what it leaves behind, and its warnings in order. -/
structure Outcome (σ α : Type) where
  answer : Except Refusal α
  state : σ
  warnings : List Warning := []

namespace Outcome
variable {σ τ α β : Type}

def done (a : α) (s : σ) : Outcome σ α := ⟨.ok a, s, []⟩

def refused (r : Refusal) (s : σ) : Outcome σ α := ⟨.error r, s, []⟩

def map (f : α → β) (o : Outcome σ α) : Outcome σ β := ⟨o.answer.map f, o.state, o.warnings⟩

def onState (f : σ → τ) (o : Outcome σ α) : Outcome τ α := ⟨o.answer, f o.state, o.warnings⟩

def after (ws : List Warning) (o : Outcome σ α) : Outcome σ α :=
  { o with warnings := ws ++ o.warnings }

/-- Goes on with the answer and the state; a refusal ends the sequence. -/
def andThen (o : Outcome σ α) (next : α → σ → Outcome σ β) : Outcome σ β :=
  match o.answer with
  | .ok a => (next a o.state).after o.warnings
  | .error r => ⟨.error r, o.state, o.warnings⟩

/-- Goes on with an answer that is wanted in a state; a step is refused where there is none. -/
def ask (x : Answer α) (s : σ) (next : α → Outcome σ β) : Outcome σ β :=
  match x with
  | .ok a => next a
  | .error fault => refused (.unanswered fault) s

def granted (x : Except Refusal α) (s : σ) (next : α → Outcome σ β) : Outcome σ β :=
  match x with
  | .ok a => next a
  | .error r => refused r s

def warn (w : Warning) (s : σ) (next : Outcome σ β) : Outcome σ β :=
  ask w.message s fun _ => next.after [w]

@[simp] theorem ask_ok (a : α) (s : σ) (next : α → Outcome σ β) : ask (.ok a) s next = next a := rfl

@[simp] theorem granted_ok (a : α) (s : σ) (next : α → Outcome σ β) :
    granted (.ok a) s next = next a := rfl

end Outcome

/-- Claims a column for an entity, which no other property may hold. -/
def Claims.mark (claims : Claims) (e : Entity) (col : Column) : Outcome Claims Unit :=
  match claims.claim? col with
  | none => .refused (.claimedTwice e.name e.table.id col.name) claims
  | some claims => .done () claims

def Draft.claim (d : Draft) (col : Column) : Outcome Draft Unit :=
  (d.claims.mark d.entity col).onState fun claims => { d with claims }

end EntityMapping
