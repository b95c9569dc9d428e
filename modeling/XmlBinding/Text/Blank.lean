/-!
# White space

The characters that count as white space and the two operations that look at them: cutting them
off both ends of a text and splitting a text into its words.
-/
namespace XmlBinding.Text

/-- The characters with the Unicode property `White_Space`. -/
def isBlank (c : Char) : Bool :=
  let n := c.toNat
  (0x9 ≤ n && n ≤ 0xD) || n == 0x20 || n == 0x85 || n == 0xA0 || n == 0x1680 ||
    (0x2000 ≤ n && n ≤ 0x200A) || n == 0x2028 || n == 0x2029 || n == 0x202F || n == 0x205F ||
    n == 0x3000

/-- Drop white space at the front. -/
def trimFront (cs : List Char) : List Char := cs.dropWhile isBlank

/-- Drop white space at both ends. -/
def trimChars (cs : List Char) : List Char := (trimFront (trimFront cs).reverse).reverse

/-- Drop white space at both ends of a text. -/
def trim (s : String) : String := String.ofList (trimChars s.toList)

/-- Nothing but white space. -/
def isAllBlank (s : String) : Bool := s.toList.all isBlank

/-- The maximal runs without white space, where `word` is the reversed run being read. -/
def wordsFrom (word : List Char) : List Char → List (List Char)
  | [] => if word.isEmpty then [] else [word.reverse]
  | c :: rest =>
    if isBlank c then
      if word.isEmpty then wordsFrom [] rest else word.reverse :: wordsFrom [] rest
    else wordsFrom (c :: word) rest

/-- The maximal runs without white space, in order. -/
def words (cs : List Char) : List (List Char) := wordsFrom [] cs

example : trimChars "\u3000 a b\u00a0".toList = "a b".toList := by decide
example : trimChars "\u200ba\ufeff".toList = "\u200ba\ufeff".toList := by decide
example : words " l1\n\n  l2 ".toList = ["l1".toList, "l2".toList] := by decide

end XmlBinding.Text
