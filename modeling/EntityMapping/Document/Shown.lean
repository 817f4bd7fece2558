import EntityMapping.Document
import EntityMapping.Text.Quoted

/-! # Values in messages

A text stands in a message as it is, and in quotes when it is part of another value.
-/
namespace EntityMapping

def Scalar.written : Scalar → String
  | .text s => Text.quoted s
  | v => v.shown

namespace Document

mutual

def written : Document → String
  | .plain v => v.written
  | .list items => "[" ++ ", ".intercalate (writtenItems items) ++ "]"
  | .record fields => "\x7b" ++ ", ".intercalate (writtenFields fields) ++ "\x7d"

def writtenItems : List Document → List String
  | [] => []
  | d :: ds => written d :: writtenItems ds

def writtenFields : List (String × Document) → List String
  | [] => []
  | (k, d) :: fs => (Text.quoted k ++ ": " ++ written d) :: writtenFields fs

end

def shown : Document → String
  | .plain v => v.shown
  | d => d.written

/-- The value as messages show it, nothing where it counts as empty. -/
def word (d : Document) : String := if d.truthy then d.shown else ""

@[simp] theorem shown_text (s : String) : shown (text s) = s := rfl

end Document
end EntityMapping
