import XmlBinding.Bean.Dynamic

/-!
# Beans

The objects that rules create and fill: dynamic beans, and four kinds with fixed properties and
methods. A failed operation leaves a bean as it was.
-/
namespace XmlBinding

inductive Bean
  | person (name : String) (age : Int64) (nickname : Option String)
  | directory (people : List ObjectId) (owner : Option ObjectId)
  | basket (items : List String) (label : String)
  | child (parent : Option ObjectId) (touched : Nat)
  | dynamic (bean : DynamicBean)
  deriving Inhabited

namespace Bean

def typeName : Bean → String
  | .person .. => "Person"
  | .directory .. => "Directory"
  | .basket .. => "Basket"
  | .child .. => "Child"
  | .dynamic bean => bean.typeName

def isDynamic : Bean → Bool
  | .dynamic _ => true
  | _ => false

/-- The type in which a property is written, if it can be written. -/
def propertyType? : Bean → String → Option ScalarType
  | .person .., name =>
    if name = "name" ∨ name = "nickname" then some .string
    else if name = "age" then some .int else none
  | .basket .., name => if name = "item" ∨ name = "label" then some .string else none
  | .dynamic bean, name => bean.propertyType? name
  | _, _ => none

/-- The value of a property that can be read. -/
def property? : Bean → String → Option Value
  | .person name age _, wanted =>
    if wanted = "name" then some (.text name)
    else if wanted = "age" then some (.int age) else none
  | .dynamic bean, wanted => bean.properties.get? wanted
  | _, _ => none

/-- Assign a value that already has the property's type. A basket's items are appended. -/
def assign (typeName : ObjectId → String) (b : Bean) (property : String) (v : Value) :
    Except CallError Bean :=
  match b with
  | .person name age nickname => match property, v with
    | "name", .text s => .ok (.person s age nickname)
    | "nickname", .text s => .ok (.person name age (some s))
    | "age", .int n => .ok (.person name n nickname)
    | _, _ => .error (.noSuchProperty "Person" property)
  | .basket items label => do
    let s ← v.takeText typeName
    if property = "item" then return .basket (items ++ [s]) label
    else if property = "label" then return .basket items s
    else throw (.noSuchProperty "Basket" property)
  | .dynamic bean => (bean.assign property v).map .dynamic
  | .directory .. | .child .. => .error (.noSuchProperty b.typeName property)

/-- The declared parameter types of a method with this many parameters. -/
def signature? : Bean → String → Nat → Option (List ScalarType)
  | .person .., "setName", 1 => some [.string]
  | .person .., "setAge", 1 => some [.int]
  | .person .., "rename", 2 => some [.string, .string]
  | _, _, _ => none

def call (typeName : ObjectId → String) (b : Bean) (method : String) (args : List Value) :
    Except CallError (Value × Bean) :=
  match b with
  | .person name age nickname => match method, args with
    | "setName", [v] => (assign typeName b "name" v).map (.null, ·)
    | "setAge", [v] => (assign typeName b "age" v).map (.null, ·)
    | "rename", [first, last] => do
      let last ← last.takeText typeName
      let first ← first.takeText typeName
      return (.null, .person (first ++ " " ++ last) age nickname)
    | "getName", [] => .ok (.text name, b)
    | _, _ => .error (.noSuchMethod "Person" method args.length)
  | .directory people owner => match method, args with
    | "addPerson", [.object id] => .ok (.null, .directory (people ++ [id]) owner)
    | "setOwner", [.object id] => .ok (.null, .directory people (some id))
    | _, _ => .error (.noSuchMethod "Directory" method args.length)
  | .child parent touched => match method, args.getLast? with
    | "setParent", some (.object id) => .ok (.null, .child (some id) touched)
    | "touch", none => .ok (.null, .child parent (touched + 1))
    | _, _ => .error (.noSuchMethod "Child" method args.length)
  | .dynamic bean => (bean.call method args).map fun (v, bean) => (v, .dynamic bean)
  | .basket .. => .error (.noSuchMethod "Basket" method args.length)

end Bean

end XmlBinding
