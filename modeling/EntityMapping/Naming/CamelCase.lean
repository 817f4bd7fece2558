import EntityMapping.Naming.Words
import EntityMapping.Text.Recase

/-! # Camel case

Class names start with a capital and property names with a small letter; the words between are
capitalised one by one.
-/
namespace EntityMapping.Naming
open Text

def capitalizeWord (w : List Char) : List Char :=
  upperChars (w.take 1) ++ lowerChars (w.drop 1)

/-- An identifier without any letter or number stays as it is. -/
def upperCamelChars (cs : List Char) : List Char :=
  match wordsOf cs with
  | [] => cs
  | ws => ws.flatMap capitalizeWord

def lowerFirst (cs : List Char) : List Char :=
  lowerChars (cs.take 1) ++ cs.drop 1

def upperCamel (name : String) : String := String.ofList (upperCamelChars name.toList)

def lowerCamel (name : String) : String :=
  String.ofList (lowerFirst (upperCamelChars name.toList))

def upperCamelName (name : Name) : Answer Name :=
  match name.text? with
  | some s => .ok (.text (upperCamel s))
  | none => if name.truthy then .error .notName else .ok name

/-- Only a text has a first letter. -/
def lowerCamelName : Name → Answer Name
  | .text s => .ok (.text (lowerCamel s))
  | .list [] => .error .notText
  | _ => .error .notName

@[simp] theorem upperCamelName_text (s : String) :
    upperCamelName (.text s) = .ok (.text (upperCamel s)) := rfl

@[simp] theorem lowerCamelName_text (s : String) :
    lowerCamelName (.text s) = .ok (.text (lowerCamel s)) := rfl

/-- Makes the first letter small, except in front of a second capital. -/
def decapitalizeChars : List Char → List Char
  | a :: b :: cs => if isUpper a && isUpper b then a :: b :: cs else lowerFirst (a :: b :: cs)
  | cs => lowerFirst cs

def decapitalize (name : String) : String := String.ofList (decapitalizeChars name.toList)

end EntityMapping.Naming
