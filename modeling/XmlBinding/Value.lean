import XmlBinding.Calendar
import XmlBinding.Decimal.Shortest
import XmlBinding.Node

/-!
# Values

What the stacks hold: scalars, lists, captured nodes and references to objects. An object is known
by its identity only, so its text needs somebody who can name its type.
-/
namespace XmlBinding

structure ObjectId where
  index : Nat
  deriving DecidableEq, Inhabited

/-- A type that a text can be converted to. `any` leaves the text as it is. -/
inductive ScalarType
  | any | string | bool | int | float | char | date | dateTime
  deriving DecidableEq, Inhabited

def ScalarType.label : ScalarType → String
  | .any => "any"
  | .string => "string"
  | .bool => "bool"
  | .int => "int"
  | .float => "float"
  | .char => "char"
  | .date => "date"
  | .dateTime => "datetime"

inductive Value
  | null
  | bool (b : Bool)
  | int (i : Int64)
  | float (x : Float)
  | char (c : Char)
  | text (s : String)
  | date (d : Calendar.Date)
  | dateTime (t : Calendar.DateTime)
  | list (items : List Value)
  | node (n : Node)
  | object (id : ObjectId)
  deriving Inhabited

namespace Value

def isNull : Value → Bool
  | .null => true
  | _ => false

def text? : Value → Option String
  | .text s => some s
  | _ => none

def int? : Value → Option Int64
  | .int i => some i
  | _ => none

/-- A float, or a whole number as a float. -/
def float? : Value → Option Float
  | .float x => some x
  | .int i => some i.toFloat
  | _ => none

def bool? : Value → Option Bool
  | .bool b => some b
  | _ => none

def list? : Value → Option (List Value)
  | .list items => some items
  | _ => none

def node? : Value → Option Node
  | .node n => some n
  | _ => none

def object? : Value → Option ObjectId
  | .object id => some id
  | _ => none

/-- A short name for the kind of a value; an object is called by the name of its type. -/
def kind (typeName : ObjectId → String) : Value → String
  | .null => "null"
  | .bool _ => "bool"
  | .int _ => "int"
  | .float _ => "float"
  | .char _ => "char"
  | .text _ => "string"
  | .date _ => "date"
  | .dateTime _ => "datetime"
  | .list _ => "list"
  | .node _ => "node"
  | .object id => typeName id

/-- The text of a value that is no list. The place of an object is not part of its text. -/
def showScalar (typeName : ObjectId → String) : Value → String
  | .null => "null"
  | .bool b => if b then "true" else "false"
  | .int i => toString i.toInt
  | .float x => Decimal.render .plain x
  | .char c => String.singleton c
  | .text s => s
  | .date d => String.ofList d.write
  | .dateTime t => String.ofList t.write
  | .list _ => ""
  | .node n => "<" ++ n.name ++ ">"
  | .object id => typeName id ++ "@PTR"

mutual

def display (typeName : ObjectId → String) : Value → String
  | .list items => "[" ++ displayAll typeName items ++ "]"
  | other => other.showScalar typeName

def displayAll (typeName : ObjectId → String) : List Value → String
  | [] => ""
  | [item] => item.display typeName
  | item :: rest => item.display typeName ++ ", " ++ displayAll typeName rest

end

mutual

/-- Equality of values: floats as numbers, nodes as trees, objects by identity. -/
def same : Value → Value → Bool
  | .null, .null => true
  | .bool a, .bool b => a == b
  | .int a, .int b => a == b
  | .float a, .float b => a == b
  | .char a, .char b => a == b
  | .text a, .text b => a == b
  | .date a, .date b => a == b
  | .dateTime a, .dateTime b => a == b
  | .list as, .list bs => sameAll as bs
  | .node a, .node b => a.same b
  | .object a, .object b => a == b
  | _, _ => false

/-- Equality of lists of values, item by item. -/
def sameAll : List Value → List Value → Bool
  | [], [] => true
  | a :: as, b :: bs => a.same b && sameAll as bs
  | _, _ => false

end

end Value

end XmlBinding
