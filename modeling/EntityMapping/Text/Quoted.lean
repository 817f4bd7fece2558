import EntityMapping.Text.Printable

/-! # Texts in quotes

A text inside quotes, with what cannot be printed written by its code point. Single quotes are
preferred; double ones are taken when only they do not occur in the text.
-/
namespace EntityMapping.Text

def quoteFor (cs : List Char) : Char :=
  if cs.contains '\'' && !cs.contains '"' then '"' else '\''

def codeEscape (letter : Char) (width n : Nat) : List Char :=
  '\\' :: letter :: (Nat.toDigits 16 n).leftpad width '0'

/-- A character by its code point, in the shortest of three widths. -/
def escapedCode (n : Nat) : List Char :=
  if n < 256 then codeEscape 'x' 2 n
  else if n < 65536 then codeEscape 'u' 4 n
  else codeEscape 'U' 8 n

def escapedChar (quote c : Char) : List Char :=
  if c = quote || c = '\\' then ['\\', c]
  else if c = '\t' then ['\\', 't']
  else if c = '\n' then ['\\', 'n']
  else if c = '\r' then ['\\', 'r']
  else if isPrintable c then [c]
  else escapedCode c.toNat

def quotedChars (cs : List Char) : List Char :=
  let quote := quoteFor cs
  quote :: cs.flatMap (escapedChar quote) ++ [quote]

def quoted (s : String) : String := String.ofList (quotedChars s.toList)

end EntityMapping.Text
