import EntityMapping.Document
import EntityMapping.Text.Alphanumeric
import EntityMapping.Text.CharClass
import EntityMapping.Text.LetterCase

/-! # Words of an identifier

An identifier is cut at every character that is neither letter nor number, and inside a run of
letters and numbers where the digits begin or end and where the case shows a new word.
-/
namespace EntityMapping.Naming
open Text

def attach (c : Char) : List (List Char) → List (List Char)
  | [] => [[c]]
  | w :: ws => (c :: w) :: ws

/-- The maximal runs of letters and numbers. -/
def runs : List Char → List (List Char)
  | [] => []
  | c :: cs =>
    if isAlphanumeric c then
      if cs.head?.any isAlphanumeric then attach c (runs cs) else [c] :: runs cs
    else runs cs

/-- Whether a word ends between `a` and `b` when `next` follows: at either end of a number, from
lower to upper case, and before the last capital of an acronym. -/
def boundary (a b : Char) (next : Option Char) : Bool :=
  isDigit a != isDigit b || (isLower a && isUpper b) ||
    (isUpper a && isUpper b && next.any isLower)

def breaksAfter (a : Char) : List Char → Bool
  | [] => false
  | b :: cs => boundary a b cs.head?

def segments : List Char → List (List Char)
  | [] => []
  | c :: cs => if breaksAfter c cs then [c] :: segments cs else attach c (segments cs)

def wordsOf (cs : List Char) : List (List Char) := (runs cs).flatMap segments

/-- The words of an identifier, as they are written. -/
def words (name : String) : List String := (wordsOf name.toList).map String.ofList

/-- The words of a name; an empty one has none, and any other has to be a text. -/
def wordsOfName (name : Name) : Answer (List String) :=
  match name.text? with
  | some s => .ok (words s)
  | none => if name.truthy then .error .notName else .ok []

@[simp] theorem wordsOfName_text (s : String) : wordsOfName (.text s) = .ok (words s) := rfl

end EntityMapping.Naming
