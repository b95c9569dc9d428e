/-!
# Refused patterns

The reasons for which a pattern cannot be registered. A refused pattern changes nothing.
-/
namespace XmlBinding

/-- Where a mark of a path pattern may stand. -/
inductive Misplacement
  | starOnlyLeading
  | bangOnlyFirst
  | questionOnlyLast
  | starOnlyOutside
  deriving DecidableEq

def Misplacement.reason : Misplacement → String
  | .starOnlyLeading => "'*' is only allowed as a leading '*/'"
  | .bangOnlyFirst => "'!' is only allowed as the first character"
  | .questionOnlyLast => "'?' must be the last segment below a parent"
  | .starOnlyOutside => "'*' is only allowed as the first or last segment"

inductive PatternError
  | empty
  | emptySegment (pattern : String)
  | misplaced (pattern : String) (why : Misplacement)
  | notAnExpression (pattern : String)
  deriving DecidableEq

def PatternError.message : PatternError → String
  | .empty => "empty pattern"
  | .emptySegment pattern => "pattern '" ++ pattern ++ "' contains an empty path segment"
  | .misplaced pattern why => "pattern '" ++ pattern ++ "': " ++ why.reason
  | .notAnExpression pattern => "pattern '" ++ pattern ++ "' is not a valid regular expression"

end XmlBinding
