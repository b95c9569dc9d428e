import XmlBinding.Text.Printable

/-!
# Quoted texts

A text between quotation marks, with an escape for every character that could not be told from
others: control characters, the backslash, the mark itself, and whatever has no picture of its own.
-/
namespace XmlBinding.Text

/-- The escape with the number of a character in lower-case hexadecimal digits. -/
def numberEscape (c : Char) : List Char :=
  '\\' :: 'u' :: '\x7b' :: Nat.toDigits 16 c.toNat ++ ['\x7d']

/-- A character inside quotation marks of one kind. -/
def escapeChar (mark c : Char) : List Char :=
  if c = '\x00' then ['\\', '0']
  else if c = '\t' then ['\\', 't']
  else if c = '\r' then ['\\', 'r']
  else if c = '\n' then ['\\', 'n']
  else if c = '\\' ∨ c = mark then ['\\', c]
  else if isPrintable c then [c]
  else numberEscape c

def quote (s : String) : String :=
  String.ofList ('"' :: s.toList.flatMap (escapeChar '"') ++ ['"'])

def quoteChar (c : Char) : String := String.ofList ('\'' :: escapeChar '\'' c ++ ['\''])

end XmlBinding.Text
