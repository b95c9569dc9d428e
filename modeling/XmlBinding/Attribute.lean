/-!
# Attributes

The attributes of a start tag, in the order of the tag. An attribute is found by its local name
and, when no local name fits, by its qualified name.
-/
namespace XmlBinding

/-- One attribute. The URI is empty when the name has no namespace. -/
structure Attribute where
  uri : String
  localName : String
  qualifiedName : String
  value : String
  deriving DecidableEq, Inhabited

def Attribute.simple (name value : String) : Attribute := ⟨"", name, name, value⟩

/-- The local name, or the qualified name where there is none. -/
def Attribute.name (a : Attribute) : String :=
  if a.localName.isEmpty then a.qualifiedName else a.localName

abbrev Attributes := List Attribute

namespace Attributes

/-- The value of the first attribute with this local name, else of the first one with this
qualified name. -/
def value? (attrs : Attributes) (name : String) : Option String :=
  match attrs.find? (·.localName == name) with
  | some a => some a.value
  | none => (attrs.find? (·.qualifiedName == name)).map (·.value)

/-- The value of the first attribute with this namespace and local name. -/
def valueIn? (attrs : Attributes) (uri localName : String) : Option String :=
  (attrs.find? fun a => a.uri == uri && a.localName == localName).map (·.value)

def mapValues (f : String → String) (attrs : Attributes) : Attributes :=
  attrs.map fun a => { a with value := f a.value }

end Attributes

end XmlBinding
