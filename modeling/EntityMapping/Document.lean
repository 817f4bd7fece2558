import EntityMapping.Entries
import EntityMapping.Malformed
import EntityMapping.Scalar

/-! # Documents

The untyped values that a parser or an inspector reports: a schema description is read from one,
and a schema keeps what was given for a name, a type, a nullability or a size. Two values mean the
same when they differ only in how yes and no are written: as such, or as one and zero.
-/
namespace EntityMapping

inductive Document
  | plain (value : Scalar)
  | list (items : List Document)
  | record (fields : List (String × Document))

/-- What a table, a column, a key or a property is called: a text as a rule, but what is reported in
its place is kept. -/
abbrev Name := Document

namespace Document

@[match_pattern] abbrev null : Document := plain .null

@[match_pattern] abbrev bool (b : Bool) : Document := plain (.bool b)

@[match_pattern] abbrev text (s : String) : Document := plain (.text s)

mutual

def decEq : (a b : Document) → Decidable (a = b)
  | .plain a, .plain b => if h : a = b then isTrue (h ▸ rfl) else isFalse fun e => h (plain.inj e)
  | .list a, .list b => match decEqItems a b with
    | isTrue h => isTrue (h ▸ rfl)
    | isFalse h => isFalse fun e => h (list.inj e)
  | .record a, .record b => match decEqFields a b with
    | isTrue h => isTrue (h ▸ rfl)
    | isFalse h => isFalse fun e => h (record.inj e)
  | .plain _, .list _ | .plain _, .record _ | .list _, .plain _ | .list _, .record _
  | .record _, .plain _ | .record _, .list _ => isFalse nofun

def decEqItems : (a b : List Document) → Decidable (a = b)
  | [], [] => isTrue rfl
  | [], _ :: _ | _ :: _, [] => isFalse nofun
  | x :: a, y :: b => match decEq x y, decEqItems a b with
    | isTrue h, isTrue t => isTrue (h ▸ t ▸ rfl)
    | isFalse h, _ => isFalse fun e => h (List.cons.inj e).1
    | _, isFalse t => isFalse fun e => t (List.cons.inj e).2

def decEqFields : (a b : List (String × Document)) → Decidable (a = b)
  | [], [] => isTrue rfl
  | [], _ :: _ | _ :: _, [] => isFalse nofun
  | (k, x) :: a, (l, y) :: b =>
    if hk : k = l then match decEq x y, decEqFields a b with
      | isTrue h, isTrue t => isTrue (hk ▸ h ▸ t ▸ rfl)
      | isFalse h, _ => isFalse fun e => h (Prod.mk.inj (List.cons.inj e).1).2
      | _, isFalse t => isFalse fun e => t (List.cons.inj e).2
    else isFalse fun e => hk (Prod.mk.inj (List.cons.inj e).1).1

end

instance : Inhabited Document := ⟨null⟩

instance : DecidableEq Document := decEq

instance : Coe String Document := ⟨text⟩

instance : Coe Bool Document := ⟨bool⟩

/-- False for what is null, no, zero or empty. -/
def truthy : Document → Bool
  | .plain v => v.truthy
  | .list items => !items.isEmpty
  | .record fields => !fields.isEmpty

def get? (key : String) : Document → Option Document
  | .record fields => Entries.get? fields key
  | _ => none

def isRecord : Document → Bool
  | .record _ => true
  | _ => false

/-- What the value is made of: entries, characters or keys. Other values have no parts. -/
def parts? : Document → Option (List Document)
  | .list items => some items
  | .text s => some (s.toList.map fun c => .text (String.singleton c))
  | .record fields => some (fields.map fun f => .text f.1)
  | _ => none

def plain? : Document → Option Scalar
  | .plain v => some v
  | _ => none

def isPlain (d : Document) : Bool := d.plain?.isSome

def text? (d : Document) : Option String := d.plain?.bind Scalar.text?

def number? (d : Document) : Option Int := d.plain?.bind Scalar.number?

def ofText? (s : Option String) : Document := (s.map text).getD null

mutual

/-- The value with every yes and no as the number that it counts as. -/
def key : Document → Document
  | .plain v => .plain v.key
  | .list items => .list (keyItems items)
  | .record fields => .record (keyFields fields)

def keyItems : List Document → List Document
  | [] => []
  | d :: ds => key d :: keyItems ds

def keyFields : List (String × Document) → List (String × Document)
  | [] => []
  | (k, d) :: fs => (k, key d) :: keyFields fs

end

def same (a b : Document) : Bool := a.key = b.key

@[simp] theorem key_text (s : String) : key (text s) = text s := rfl

@[simp] theorem same_self (a : Document) : a.same a = true := by simp [same]

theorem same_iff {a b : Document} : a.same b = true ↔ a.key = b.key := by simp [same]

theorem same_comm (a b : Document) : a.same b = b.same a := by simp [same, eq_comm]

@[simp] theorem same_text (s t : String) : (text s).same (text t) = decide (s = t) := by
  simp [same]

def field (key : String) (d : Document) : Document := (d.get? key).getD null

def givenAt? (key : String) (d : Document) : Option Document := (d.get? key).filter truthy

/-- The value of a field unless it is empty, else null. -/
def givenAt (key : String) (d : Document) : Document := (d.givenAt? key).getD null

/-- A text that is wanted, or what is wrong with another value in its place. -/
def asText (fault : Malformed) (d : Document) : Answer String :=
  match d.text? with
  | some s => .ok s
  | none => .error fault

@[simp] theorem asText_text (fault : Malformed) (s : String) : (text s).asText fault = .ok s := rfl

def asKey (d : Document) : Answer Document := if d.isPlain then .ok d else .error .notName

@[simp] theorem asKey_text (s : String) : (text s).asKey = .ok (text s) := rfl

def entries (d : Document) : Answer (List Document) :=
  match d.parts? with
  | some ds => .ok ds
  | none => .error .notList

/-- A key, which is looked up, and what stands under it. -/
def asPair (d : Document) : Answer (Document × Document) := do
  match ← d.entries with
  | [key, value] => pure (← key.asKey, value)
  | _ => throw .notPair

/-- The entry at a position; below zero positions count from the end. -/
def entryOf {α : Type} (as : List α) (d : Document) : Answer α := do
  let some n := d.number? | throw .notNumber
  let i := if n < 0 then n + as.length else n
  let some a := if i < 0 then none else as[i.toNat]? | throw .noEntry
  pure a

end Document
end EntityMapping
