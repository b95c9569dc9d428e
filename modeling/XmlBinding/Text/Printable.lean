import XmlBinding.Text.Addition

/-!
# Printable characters

A text is quoted with the characters that have a picture of their own. Controls, formats, separators
but the space, code points without a character and characters that are not meant to be seen have
none, and a mark that joins the character before it has none by itself.
-/
namespace XmlBinding.Text

/-- Characters without a picture. -/
def invisible : CodeSet :=
  (CodeSet.unionAll [Category.other, Category.surrogate, Category.separator,
    Property.defaultIgnorable]).without (Addition.characters.union (.single ' '))

/-- Marks that join the character before them. A halfwidth voicing sign extends a cluster too, but
it is a letter with a picture of its own. -/
def joining : CodeSet :=
  (Property.graphemeExtend.without Category.letter).union Addition.extending

/-- A character that is shown as itself. -/
def isPrintable (c : Char) : Bool := !invisible.contains c && !joining.contains c

end XmlBinding.Text
