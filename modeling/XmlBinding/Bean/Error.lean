import XmlBinding.Value.Coercion

/-!
# Failed calls

The ways in which setting a property of an object or calling one of its methods can fail.
-/
namespace XmlBinding

inductive CallError
  | notAnObject (found : String)
  | noSuchProperty (typeName property : String)
  | noSuchMethod (typeName method : String) (arity : Nat)
  | conversion (cause : ConversionError)
  | busy (typeName : String)
  | failed (text : String)
  deriving DecidableEq

def CallError.message : CallError → String
  | .notAnObject found => "target is not an object (found " ++ found ++ ")"
  | .noSuchProperty typeName property =>
    typeName ++ " has no writable property '" ++ property ++ "'"
  | .noSuchMethod typeName method arity =>
    typeName ++ " has no method '" ++ method ++ "' taking " ++ toString arity ++ " argument(s)"
  | .conversion cause => cause.message
  | .busy typeName => typeName ++ " is already borrowed (re-entrant call)"
  | .failed text => text

def Value.convert (wanted : ScalarType) (v : Value) : Except CallError Value :=
  (v.coerce wanted).mapError .conversion

/-- The content of a text value, as part of a call. -/
def Value.takeText (typeName : ObjectId → String) (v : Value) : Except CallError String :=
  (v.expectText typeName).mapError .conversion

end XmlBinding
