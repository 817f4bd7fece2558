import EntityMapping.Text.Recase

/-! # English plurals

The regular endings, decided on the lower case of the noun.
-/
namespace EntityMapping.Naming
open Text

inductive PluralEnding
  | s
  | es
  | ies
deriving DecidableEq

def isVowel (c : Char) : Bool := "aeiou".toList.contains c

def PluralEnding.ofReversed : List Char → PluralEnding
  | 's' :: _ | 'x' :: _ | 'z' :: _ => .es
  | 'h' :: 'c' :: _ | 'h' :: 's' :: _ => .es
  | 'y' :: c :: _ => if isVowel c then .s else .ies
  | _ => .s

/-- Of a noun in -y the last letter is replaced; the empty noun has no plural. -/
def plural (noun : String) : String :=
  if noun.isEmpty then noun
  else match PluralEnding.ofReversed (lowerChars noun.toList).reverse with
    | .s => noun ++ "s"
    | .es => noun ++ "es"
    | .ies => String.ofList noun.toList.dropLast ++ "ies"

end EntityMapping.Naming
