import XmlBinding.Value

/-!
# Conversion of texts

Attribute values and element text arrive as texts and are wanted in the declared type of a property
or a parameter. Only texts are converted; every other value passes unchanged.
-/
namespace XmlBinding

/-- A value whose text cannot be converted to a type. -/
structure ConversionError where
  text : String
  wanted : ScalarType
  deriving DecidableEq

def ConversionError.message (e : ConversionError) : String :=
  "cannot convert '" ++ e.text ++ "' to " ++ e.wanted.label

namespace Value

/-- Lower case for the letters A to Z; the long s counts as a form of the letter s. -/
def foldLetter (c : Char) : Char := if c = '\u017f' then 's' else c.toLower

/-- The words for true and false, in any mix of cases. -/
def readBool? (cs : List Char) : Option Bool :=
  let word := cs.map foldLetter
  if [['t', 'r', 'u', 'e'], ['y', 'e', 's'], ['y'], ['o', 'n'], ['1']].contains word then some true
  else if [['f', 'a', 'l', 's', 'e'], ['n', 'o'], ['n'], ['o', 'f', 'f'], ['0']].contains word then
    some false
  else none

/-- Read a text as a value of a type. White space around it does not count, unless a single
character is wanted. -/
def read? (wanted : ScalarType) (s : String) : Option Value :=
  let cs := Text.trimChars s.toList
  match wanted with
  | .any | .string => some (.text s)
  | .bool => (readBool? cs).map .bool
  | .int => (Decimal.int64? cs).map .int
  | .float => (Decimal.float? cs).map .float
  | .char => match s.toList with
    | [c] => some (.char c)
    | _ => none
  | .date => (Calendar.Date.read? cs).map .date
  | .dateTime => (Calendar.DateTime.read? cs).map .dateTime

/-- Convert a text to the wanted type and let any other value pass. -/
def coerce (wanted : ScalarType) : Value → Except ConversionError Value
  | .text s => match read? wanted s with
    | some v => .ok v
    | none => .error ⟨s, wanted⟩
  | other => .ok other

/-- The content of a text value; any other value fails with its own text. -/
def expectText (typeName : ObjectId → String) : Value → Except ConversionError String
  | .text s => .ok s
  | other => .error ⟨other.display typeName, .string⟩

end Value

end XmlBinding
