import XmlBinding.Dispatch
import XmlBinding.Markup.Token

/-!
# Documents

A document in text form and the events that it consists of. Where names of namespaces are resolved,
the declarations of a start tag hold for the tag itself and everything inside it, and they are no
attributes. The position of an event is that of its token. A document that fails leaves the binder
ready for the next one.
-/
namespace XmlBinding

open Markup (Token)

variable {κ : Type}

/-- The name of an element that is open, and the names that its tag declared. -/
structure OpenElement where
  uri : String
  localName : String
  qualifiedName : String
  declared : List String := []

namespace Document

/-- What stands before the first colon and what stands behind it. -/
def splitName (name : String) : Option (String × String) :=
  match name.toList.dropWhile (· ≠ ':') with
  | _ :: rest => some (String.ofList (name.toList.takeWhile (· ≠ ':')), String.ofList rest)
  | [] => none

/-- The name that an attribute binds to a namespace; the empty name stands for names without a
colon. -/
def declaredName? (name : String) : Option String :=
  if name = "xmlns" then some ""
  else match splitName name with
    | some ("xmlns", label) => some label
    | _ => none

/-- The namespace of a name before a colon. The name `xml` always stands for the same one. -/
def resolve (b : Binder κ) (label : String) : Except DocumentFault String :=
  if label = "xml" then .ok "http://www.w3.org/XML/1998/namespace"
  else match b.namespaceOf? label with
    | some uri => .ok uri
    | none => .error (.unboundName label)

/-- An attribute with its name resolved. One without a colon has no namespace. -/
def resolveAttribute (b : Binder κ) (name value : String) : Except DocumentFault Attribute :=
  match splitName name with
  | some (label, localName) => (resolve b label).map (⟨·, localName, name, value⟩)
  | none => .ok ⟨"", name, name, value⟩

/-- The attributes that are no declarations, with their names resolved. -/
def resolveAttributes (b : Binder κ) (attrs : List (String × String)) :
    Except DocumentFault Attributes :=
  (attrs.filter fun a => (declaredName? a.1).isNone).mapM fun a => resolveAttribute b a.1 a.2

/-- An element's name with its namespace. One without a colon is in the default namespace. -/
def resolveElement (b : Binder κ) (name : String) (declared : List String) :
    Except DocumentFault OpenElement :=
  let (label, localName) := (splitName name).getD ("", name)
  if label.isEmpty then .ok ⟨(b.namespaceOf? "").getD "", localName, name, declared⟩
  else (resolve b label).map (⟨·, localName, name, declared⟩)

/-- Fail with a fault at a position. -/
def liftFault {α : Type} (here : Position) (r : Except DocumentFault α) : Action κ BindError α :=
  Action.lift (r.mapError (.document here))

/-- The declarations of a start tag. -/
def declarations (attrs : List (String × String)) : List (String × String) :=
  attrs.filterMap fun a => (declaredName? a.1).map (·, a.2)

/-- Resolve the names of a start tag, after its declarations have come into force. -/
def resolveTag (aware : Bool) (here : Position) (name : String) (attrs : List (String × String)) :
    Action κ BindError (OpenElement × Attributes) := do
  if aware then
    let declared := declarations attrs
    modify fun b => declared.foldl (fun b d => b.bindName d.1 d.2) b
    let b ← get
    let attributes ← liftFault here (resolveAttributes b attrs)
    let element ← liftFault here (resolveElement b name (declared.map (·.1)))
    return (element, attributes)
  else return (⟨"", "", name, []⟩, attrs.map fun a => ⟨"", a.1, a.1, a.2⟩)

def start (x : Extension κ) (aware : Bool) (here : Position) (name : String)
    (attrs : List (String × String)) (opened : List OpenElement) :
    Action κ BindError (List OpenElement) := do
  let (element, attributes) ← resolveTag aware here name attrs
  startElement x element.uri element.localName element.qualifiedName attributes
  return element :: opened

/-- An end tag: the innermost element closes, and its declarations end in the opposite order. -/
def close (x : Extension κ) (here : Position) (opened : List OpenElement) :
    Action κ BindError (List OpenElement) := do
  match opened with
  | [] => liftFault here (.error .strayEndTag)
  | element :: outer =>
    endElement x element.uri element.localName element.qualifiedName
    modify fun b => element.declared.reverse.foldl Binder.unbindName b
    return outer

/-- The events of one token. -/
def handle (x : Extension κ) (aware : Bool) (here : Position) (opened : List OpenElement)
    (token : Token) : Action κ BindError (List OpenElement) := do
  match token with
  | .start name attrs => start x aware here name attrs opened
  | .empty name attrs => close x here (← start x aware here name attrs opened)
  | .close => close x here opened
  | .text content =>
    modify (·.characters content)
    return opened
  | .reference name =>
    match Markup.textReference? name.toList with
    | some c =>
      modify (·.characters (String.singleton c))
      return opened
    | none => liftFault here (.error (.unknownEntity name))
  | .skipped | .finish => return opened
  | .badTag | .broken => liftFault here (.error .illFormed)

/-- The events of the tokens from some place of the text on. What is no token has no position of
its own, so an error there leaves the position at the last token. -/
def handleAll (x : Extension κ) (aware : Bool) (cursor : Cursor) (opened : List OpenElement) :
    List (Nat × Token) → Action κ BindError (List OpenElement)
  | [] => return opened
  | (offset, token) :: rest => do
    let cursor := cursor.seek offset
    let here := cursor.positionOf offset
    unless token = .broken do
      modify ({ · with position := some here })
    handleAll x aware cursor (← handle x aware here opened token) rest

def run (x : Extension κ) (text : List Char) : Action κ BindError Unit := do
  let aware := (← get).options.namespaceAware
  modify fun b => { b with position := some (Position.ofOffset text 0) }.startDocument
  match ← handleAll x aware { rest := text } [] (Markup.scan text) with
  | [] => endDocument x
  | element :: _ =>
    liftFault (Position.ofOffset text (Text.byteLength text))
      (.error (.unclosedElement element.qualifiedName))

end Document

/-- Read a document and answer the root. -/
def parse (x : Extension κ) (text : String) : Action κ BindError (Option Value) := do
  match ← (Document.run x text.toList).attempt with
  | .ok () => return (← get).root
  | .error cause =>
    modify (·.abandon)
    Action.fail cause

end XmlBinding
