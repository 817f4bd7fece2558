import EntityMapping.Text.CaseIgnorable
import EntityMapping.Text.CaseMapping
import EntityMapping.Text.LetterCase

/-! # Upper and lower case of a text

Only the capital sigma depends on its surroundings: it becomes the final sigma when a letter with
a case stands before it and none after it, case-ignorable characters being passed over.
-/
namespace EntityMapping.Text

def capitalSigma : Char := Char.ofNat 931
def smallSigma : Char := Char.ofNat 963
def finalSigma : Char := Char.ofNat 962

/-- Whether the next character that matters for the final sigma has a case. -/
def casedNext (cs : List Char) : Bool :=
  (cs.dropWhile isCaseIgnorable).head?.any isCased

/-- Lower case of what follows; `cased` tells whether the last character that matters before it
has a case. -/
def lowerFrom (cased : Bool) : List Char → List Char
  | [] => []
  | c :: cs =>
    let image :=
      if c = capitalSigma then
        [if cased && !casedNext cs then finalSigma else smallSigma]
      else lowerChar c
    image ++ lowerFrom (if isCaseIgnorable c then cased else isCased c) cs

def lowerChars (cs : List Char) : List Char := lowerFrom false cs

def upperChars (cs : List Char) : List Char := cs.flatMap upperChar

def lower (s : String) : String := String.ofList (lowerChars s.toList)

def upper (s : String) : String := String.ofList (upperChars s.toList)

end EntityMapping.Text
