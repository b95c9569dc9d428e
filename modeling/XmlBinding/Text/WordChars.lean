import XmlBinding.Text.Addition

/-!
# Letters, digits and words

The characters that words are made of, and the letters and numbers that a name may hold.
-/
namespace XmlBinding.Text

/-- Letters, marks, decimal digits, connecting punctuation and joiners. -/
def wordCharacters : CodeSet :=
  .unionAll [Property.alphabetic, Category.mark, Category.decimalNumber,
    Category.connectorPunctuation, Property.joinControl]

/-- A letter, or a character that counts as one. -/
def isAlphabetic (c : Char) : Bool :=
  Property.alphabetic.contains c || Addition.alphabetic.contains c

/-- A letter or a number. -/
def isAlphanumeric (c : Char) : Bool :=
  isAlphabetic c || Category.number.contains c || Addition.numbers.contains c

end XmlBinding.Text
