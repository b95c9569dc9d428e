import XmlBinding.Attribute

/-!
# Document nodes

Trees of elements and text, and the construction of one from the events inside an element. No two
neighbouring children are both text: a text that follows a text is joined to it.
-/
namespace XmlBinding

/-- An element, a text, or the content of an element without the element itself. -/
inductive Node
  | element (uri name : String) (attributes : Attributes) (children : List Node)
  | text (content : String)
  | fragment (children : List Node)
  deriving Inhabited

namespace Node

/-- The element's name, or a mark for the other kinds. -/
def name : Node → String
  | .element _ name _ _ => name
  | .text _ => "#text"
  | .fragment _ => "#fragment"

def children : Node → List Node
  | .element _ _ _ children => children
  | .text _ => []
  | .fragment children => children

def attribute? : Node → String → Option String
  | .element _ _ attributes _, name => attributes.value? name
  | _, _ => none

/-- Add `child` at the end of a list of children, joining text to text. -/
def join (child : Node) : List Node → List Node
  | [] => [child]
  | [.text last] => match child with
    | .text more => [.text (last ++ more)]
    | other => [.text last, other]
  | first :: rest => first :: join child rest

/-- Add a child at the end. A text takes no children. -/
def append (parent child : Node) : Node :=
  match parent with
  | .element uri name attributes children => .element uri name attributes (join child children)
  | .text content => .text content
  | .fragment children => .fragment (join child children)

mutual

/-- The text of a node and all its descendants, in document order. -/
def textContent : Node → String
  | .text content => content
  | .element _ _ _ children => textOfAll children
  | .fragment children => textOfAll children

def textOfAll : List Node → String
  | [] => ""
  | child :: rest => child.textContent ++ textOfAll rest

end

mutual

def same : Node → Node → Bool
  | .element u n a c, .element u' n' a' c' => u == u' && n == n' && a == a' && sameAll c c'
  | .text t, .text t' => t == t'
  | .fragment c, .fragment c' => sameAll c c'
  | _, _ => false

def sameAll : List Node → List Node → Bool
  | [], [] => true
  | a :: as, b :: bs => a.same b && sameAll as bs
  | _, _ => false

end

end Node

/-- A node under construction: the node that is captured, and the elements that are open inside it,
the innermost first. -/
structure Capture where
  root : Node
  nested : List Node := []
  deriving Inhabited

namespace Capture

/-- An element starts inside the captured one. -/
def start (c : Capture) (uri name : String) (attributes : Attributes) : Capture :=
  { c with nested := .element uri name attributes [] :: c.nested }

def add (c : Capture) (child : Node) : Capture :=
  match c.nested with
  | [] => { c with root := c.root.append child }
  | top :: outer => { c with nested := top.append child :: outer }

/-- Text inside the innermost open element; an empty text leaves no trace. -/
def text (c : Capture) (content : String) : Capture :=
  if content.isEmpty then c else c.add (.text content)

/-- Close the innermost open element. `none` means that nothing is open inside the captured node,
so the end tag is its own. -/
def close? (c : Capture) : Option Capture :=
  match c.nested with
  | [] => none
  | top :: outer => some (add { c with nested := outer } top)

/-- Close `nested` elements one after the other, innermost first, and return the captured node. -/
def closeAll (root : Node) : List Node → Node
  | [] => root
  | [top] => root.append top
  | top :: parent :: outer => closeAll root (parent.append top :: outer)
  termination_by nested => nested.length

/-- The captured node with everything inside it closed. -/
def finish (c : Capture) : Node := closeAll c.root c.nested

end Capture

end XmlBinding
