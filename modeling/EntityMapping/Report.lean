import EntityMapping.Relational.Declaration
import EntityMapping.Warning

/-! # Reports of reading a schema

Reading ends with a value or with the first error, and in both cases with the warnings that were
issued on the way.
-/
namespace EntityMapping

inductive ReadError
  | malformed (fault : Malformed)
  | definition (error : DefinitionError)
  | unreadable (table : Name) (url : String)
  | noDatabase (target : String)
deriving DecidableEq

def ReadError.message : ReadError → Answer String
  | .malformed fault => .error fault
  | .definition error => error.message
  | .unreadable table _ => .ok ("Failed to read database metadata: " ++ table.shown)
  | .noDatabase target => .ok ("No database file found in " ++ target)

structure Report (α : Type) where
  result : Except ReadError α
  warnings : List Warning := []

namespace Report
variable {α β : Type}

def error (e : ReadError) : Report α := ⟨.error e, []⟩

def andThen (x : Report α) (next : α → Report β) : Report β :=
  match x.result with
  | .ok a =>
    let y := next a
    ⟨y.result, x.warnings ++ y.warnings⟩
  | .error e => ⟨.error e, x.warnings⟩

instance : Monad Report where
  pure a := ⟨.ok a, []⟩
  bind := andThen

instance : LawfulMonad Report := LawfulMonad.mk' Report
  (fun ⟨r, ws⟩ => by cases r <;> simp [Functor.map, andThen])
  (fun _ _ => rfl)
  (fun ⟨r, ws⟩ f g => by
    cases r with
    | error e => rfl
    | ok a => rcases h : f a with ⟨_ | b, vs⟩ <;> simp [bind, andThen, h])

def ofAnswer (x : Answer α) : Report α := ⟨x.mapError .malformed, []⟩

def ofDefinition (x : Except DefinitionError α) : Report α := ⟨x.mapError .definition, []⟩

/-- Issues a warning, which needs a message. -/
def warn (w : Warning) : Report Unit :=
  match w.message with
  | .ok _ => ⟨.ok (), [w]⟩
  | .error fault => error (.malformed fault)

def collect (read : α → Report (Option β)) : List α → Report (List β)
  | [] => pure []
  | a :: as => do
    let b ← read a
    let bs ← collect read as
    pure (b.toList ++ bs)

end Report
end EntityMapping
