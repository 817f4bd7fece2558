import EntityMapping.Document.Shown

/-! # Composed names

A name is put together with a package in front of it, a dot between them, or with a number behind
it when it is in use. Of the first numbers, as many as there are names in use, one is always free.
-/
namespace EntityMapping.Naming

def unqualify (name : String) : String :=
  String.ofList (name.toList.reverse.takeWhile (· ≠ '.')).reverse

/-- Only a text has parts between dots. -/
def unqualifyName (name : Name) : Answer String := do pure (unqualify (← name.asText .notText))

@[simp] theorem unqualifyName_text (s : String) : unqualifyName (.text s) = .ok (unqualify s) := rfl

/-- Nothing is put in front when the package is empty. -/
def qualify (package name : Name) : Name :=
  if package.truthy then .text (package.shown ++ "." ++ name.shown) else name

def isTaken (taken : List Name) (name : Name) : Bool := taken.any name.same

def numbered (base : Name) (k : Nat) : Name := .text (base.shown ++ "_" ++ Nat.repr k)

/-- The name itself if it is free, else the name with the least free number from one on. -/
def fresh (taken : List Name) (base : Name) : Name :=
  if isTaken taken base then
    (((List.range taken.length).map fun k => numbered base (k + 1)).find?
      fun n => !isTaken taken n).getD base
  else base

def freshName (taken : List Name) (base : Name) : Answer Name :=
  if taken.all Document.isPlain && base.isPlain then .ok (fresh taken base) else .error .notName

end EntityMapping.Naming
