import XmlBinding.Binder
import XmlBinding.Text.Quoted

/-!
# Inspection

The complete text of values, objects, registrations and binders, for whoever looks for a mistake.
Texts are quoted, and every part carries its name. An object shows the objects it refers to, unless
it is held at that moment.
-/
namespace XmlBinding.Inspection

/-! ### Shapes -/

def items (texts : List String) : String := "[" ++ ", ".intercalate texts ++ "]"

def tagged (name inner : String) : String := name ++ "(" ++ inner ++ ")"

def parts (name : String) (fields : List (String × String)) : String :=
  name ++ " \x7b " ++ ", ".intercalate (fields.map fun f => f.1 ++ ": " ++ f.2) ++ " \x7d"

/-- A list of pairs between braces. -/
def pairs (entries : List (String × String)) : String :=
  "\x7b" ++ ", ".intercalate (entries.map fun e => Text.quote e.1 ++ ": " ++ e.2) ++ "\x7d"

def optional : Option String → String
  | some text => tagged "Some" text
  | none => "None"

def flag (b : Bool) : String := if b then "true" else "false"

def texts (ts : List String) : String := items (ts.map Text.quote)

/-! ### Values -/

def oneAttribute (a : Attribute) : String :=
  parts "Attribute" [("namespace_uri", Text.quote a.uri), ("local_name", Text.quote a.localName),
    ("qname", Text.quote a.qualifiedName), ("value", Text.quote a.value)]

def attributes (attrs : Attributes) : String :=
  parts "Attributes" [("items", items (attrs.map oneAttribute))]

mutual

def node : Node → String
  | .element uri name attrs children =>
    parts "Element" [("namespace_uri", Text.quote uri), ("name", Text.quote name),
      ("attributes", attributes attrs), ("children", items (nodes children))]
  | .text content => tagged "Text" (Text.quote content)
  | .fragment children => tagged "Fragment" (items (nodes children))

def nodes : List Node → List String
  | [] => []
  | n :: rest => node n :: nodes rest

end

def scalarType : ScalarType → String
  | .any => "Any"
  | .string => "Str"
  | .bool => "Bool"
  | .int => "Int"
  | .float => "Float"
  | .char => "Char"
  | .date => "Date"
  | .dateTime => "DateTime"

mutual

/-- The text of a value, given the texts of objects. -/
def value (object : ObjectId → String) : Value → String
  | .null => "Null"
  | .bool b => tagged "Bool" (flag b)
  | .int i => tagged "Int" (toString i.toInt)
  | .float x => tagged "Float" (Decimal.render .inspected x)
  | .char c => tagged "Char" (Text.quoteChar c)
  | .text s => tagged "Str" (Text.quote s)
  | .date d => tagged "Date" (String.ofList d.write)
  | .dateTime t => tagged "DateTime" (String.ofList t.inspect)
  | .list vs => tagged "List" (items (values object vs))
  | .node n => tagged "Node" (node n)
  | .object id => tagged "Object" (object id)

def values (object : ObjectId → String) : List Value → List String
  | [] => []
  | v :: rest => value object v :: values object rest

end

/-! ### Objects -/

def declared (types : Dict String ScalarType) : String :=
  pairs (types.sorted.map fun e => (e.1, scalarType e.2))

/-- The text of a bean, given the texts of other objects. -/
def bean (object : ObjectId → String) : Bean → String
  | .person name age nickname =>
    parts "Person" [("name", Text.quote name), ("age", toString age.toInt),
      ("nickname", optional (nickname.map Text.quote))]
  | .directory people owner =>
    parts "Directory" [("people", items (people.map object)),
      ("owner", optional (owner.map object))]
  | .basket contents label =>
    parts "Basket" [("items", texts contents), ("label", Text.quote label)]
  | .child parent touched =>
    parts "Child" [("parent", optional (parent.map object)), ("touched", toString touched)]
  | .dynamic b =>
    parts "DynamicBean" [("type_name", Text.quote b.typeName),
      ("declared", optional (b.declared.map declared)),
      ("properties", pairs (b.properties.sorted.map fun p => (p.1, value object p.2))),
      ("children", items (values object b.children))]

/-- The text of an object, with the objects it refers to down to `fuel` levels. -/
def object (h : Heap) : Nat → ObjectId → String
  | 0, _ => ""
  | fuel + 1, id => match h.bean? id with
    | some b => bean (object h fuel) b
    | none => "Object(<borrowed>)"

/-- The text of an object; no chain of different objects is longer than there are objects. -/
def objectIn (h : Heap) (id : ObjectId) : String := object h (h.cells.size + 1) id

/-! ### Registrations and binders -/

/-- The text of a registration, given the name of its rule. -/
def entry (pattern : String) (scope : Option String) (rule : String) (order : Nat) : String :=
  parts "RuleEntry" [("pattern", Text.quote pattern),
    ("namespace_uri", optional (scope.map Text.quote)), ("rule", Text.quote rule),
    ("order", toString order)]

/-- The text of a matcher that compares whole paths. -/
def patterns (ps : List String) : String := parts "RegexRules" [("patterns", texts ps)]

def factorySource : FactorySource → String
  | .named name attr => "named(" ++ optional (some (Text.quote name)) ++ ", attr " ++
      optional (attr.map Text.quote) ++ ")"
  | _ => "instance"

/-- The text of a rule that makes objects with a factory. -/
def factoryRule (source : FactorySource) (ignoreFailure : Bool) : String :=
  parts "FactoryCreateRule" [("source", Text.quote (factorySource source)),
    ("ignore_create_exceptions", flag ignoreFailure)]

def options (o : Options) : String :=
  parts "Options" [("namespace_aware", flag o.namespaceAware), ("trim_text", flag o.trimText),
    ("collect_trace", flag o.collectTrace)]

def binder {κ : Type} (b : Binder κ) : String :=
  let shown := value (objectIn b.heap)
  "Digester \x7b " ++ ", ".intercalate [
    "match_path: " ++ Text.quote b.path,
    "stack: " ++ parts "Stack" [("items", items (b.stack.reverse.map shown))],
    "params: " ++ toString b.params.length,
    "root: " ++ optional (b.root.map shown),
    "classes: " ++ parts "ClassRegistry" [("classes", texts (b.classes.sorted.map (·.1)))],
    "options: " ++ options b.options] ++ ", .. \x7d"

end XmlBinding.Inspection
