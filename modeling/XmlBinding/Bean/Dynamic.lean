import XmlBinding.Dict
import XmlBinding.Bean.Error
import XmlBinding.Text.LowerCase

/-!
# Dynamic beans

An object whose properties are a dictionary. Its methods follow from their names: `setX` assigns
the property `x`, `addX` appends to it, `getX` reads it, and `addChild` appends to the children.
A bean may declare its properties; then only those can be written, and each has a type.
-/
namespace XmlBinding

structure DynamicBean where
  typeName : String
  /-- The declared properties; `none` lets every name be written. -/
  declared : Option (Dict String ScalarType) := none
  properties : Dict String Value := ∅
  children : List Value := []
  deriving Inhabited

/-- What a method of a dynamic bean does, as told by its name and its arguments. -/
inductive Convention
  | child (value : Value)
  | assign (property : String) (value : Value)
  | extend (property : String) (value : Value)
  | fetch (property : String)

/-- The property that a method's name speaks of behind its verb. -/
def propertyOf (rest : List Char) : String := String.ofList (Text.decapitalize rest)

/-- Read a method's name and its arguments. A verb alone names no property. -/
def Convention.of? (method : String) (args : List Value) : Option Convention :=
  match method.toList, args with
  | 's' :: 'e' :: 't' :: c :: rest, [v] => some (.assign (propertyOf (c :: rest)) v)
  | 'a' :: 'd' :: 'd' :: c :: rest, [v] =>
    if method = "addChild" then some (.child v) else some (.extend (propertyOf (c :: rest)) v)
  | 'g' :: 'e' :: 't' :: c :: rest, [] => some (.fetch (propertyOf (c :: rest)))
  | _, _ => none

namespace DynamicBean

def propertyType? (b : DynamicBean) (name : String) : Option ScalarType :=
  match b.declared with
  | some declared => declared.get? name
  | none => some .any

/-- Store a value, whatever is declared. -/
def insert (b : DynamicBean) (name : String) (v : Value) : DynamicBean :=
  { b with properties := b.properties.insert name v }

/-- Store a value under a name that can be written. -/
def assign (b : DynamicBean) (name : String) (v : Value) : Except CallError DynamicBean :=
  if (b.propertyType? name).isSome then .ok (b.insert name v)
  else .error (.noSuchProperty b.typeName name)

/-- What a property holds after `v` was appended to what it held. -/
def extended (v : Value) : Option Value → Value
  | none => .list [v]
  | some (.list items) => .list (items ++ [v])
  | some other => .list [other, v]

/-- Append a value to a property that can be written. -/
def extend (b : DynamicBean) (name : String) (v : Value) : Except CallError DynamicBean :=
  if (b.propertyType? name).isSome then .ok (b.insert name (extended v (b.properties.get? name)))
  else .error (.noSuchProperty b.typeName name)

def call (b : DynamicBean) (method : String) (args : List Value) :
    Except CallError (Value × DynamicBean) :=
  match Convention.of? method args with
  | some (.child v) => .ok (.null, { b with children := b.children ++ [v] })
  | some (.assign name v) => (b.assign name v).map (.null, ·)
  | some (.extend name v) => (b.extend name v).map (.null, ·)
  | some (.fetch name) => .ok ((b.properties.get? name).getD .null, b)
  | none => .error (.noSuchMethod b.typeName method args.length)

end DynamicBean

end XmlBinding
