import EntityMapping.Scalar

/-! # Malformed values

Why a value that was given cannot be used where it stands: something is missing, the value is of
another kind, or it is of the right kind and does not fit.
-/
namespace EntityMapping

inductive Malformed
  | missing (key : Scalar)
  | noFields
  | notList
  | notName
  | notNumber
  | notRecord
  | notText
  | noEntry
  | notPair
  | hasNul
  | notChoice
deriving DecidableEq

/-- What can be had of some values, or why it cannot. A fault counts when the answer is used. -/
abbrev Answer := Except Malformed

/-- Answers are compared by what they give. -/
instance (priority := high) decidableEqExcept {ε α : Type} [DecidableEq ε] [DecidableEq α] :
    DecidableEq (Except ε α)
  | .ok a, .ok b => decidable_of_iff (a = b) (by simp)
  | .error a, .error b => decidable_of_iff (a = b) (by simp)
  | .ok _, .error _ => isFalse (by simp)
  | .error _, .ok _ => isFalse (by simp)

/-- The system ends a path and the value of a variable at a NUL, so that none of them has one. -/
def Text.nulFree (s : String) : Answer String :=
  if s.toList.contains '\x00' then .error .hasNul else .ok s

end EntityMapping
