/-! # Plain values

A plain value has no parts: nothing, a switch, a number or a text.
-/
namespace EntityMapping

inductive Scalar
  | null
  | bool (b : Bool)
  | int (n : Int)
  | text (s : String)
deriving DecidableEq

namespace Scalar

instance : Inhabited Scalar := ⟨null⟩

/-- False for what is null, no, zero or empty. -/
def truthy : Scalar → Bool
  | null => false
  | bool b => b
  | int n => n ≠ 0
  | text s => !s.isEmpty

def text? : Scalar → Option String
  | text s => some s
  | _ => none

/-- The number that a value counts as; yes and no count as one and zero. -/
def number? : Scalar → Option Int
  | int n => some n
  | bool b => some (if b then 1 else 0)
  | _ => none

def shown : Scalar → String
  | null => "None"
  | bool b => if b then "True" else "False"
  | int n => Int.repr n
  | text s => s

def key : Scalar → Scalar
  | bool b => int (if b then 1 else 0)
  | v => v

end Scalar
end EntityMapping
