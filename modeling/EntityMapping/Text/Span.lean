/-! # Spans of code points

A character class is a list of spans, a case mapping a list of spans that are moved as a whole.
-/
namespace EntityMapping.Text

/-- The code points `first`, `first + step`, and so on up to `last`. -/
structure Span where
  first : Nat
  last : Nat
  step : Nat
deriving DecidableEq

def Span.has (s : Span) (n : Nat) : Bool :=
  decide (s.first ≤ n) && decide (n ≤ s.last) && (n - s.first) % s.step == 0

def Span.cover (spans : List Span) (c : Char) : Bool :=
  spans.any fun s => s.has c.toNat

/-- A span and the code point that its first one is mapped to; the others keep their distance. -/
structure Shift where
  span : Span
  image : Nat
deriving DecidableEq

/-- The image under the first span that has the character; any other is its own image. -/
def Shift.apply (shifts : List Shift) (c : Char) : Char :=
  match shifts.find? fun s => s.span.has c.toNat with
  | some s => Char.ofNat (s.image + (c.toNat - s.span.first))
  | none => c

end EntityMapping.Text
