import XmlBinding.Document
import XmlBinding.Heap

/-!
# Documents and their images

A document as a tree, written as what stands at one place together with everything behind it, with
the names and attributes as its tags have them. The image of an element is an object named after it:
its attributes and its own text are the properties, and the images of the elements inside are the
children. Nothing here speaks of rules or stacks.
-/
namespace XmlBinding.Generic

open Markup (Token)

/-- What a reader delivers: tags as they are written, and texts with their references resolved. -/
inductive ReaderEvent
  | start (name : String) (attrs : List (String × String))
  | text (content : String)
  | close
  deriving DecidableEq

/-- The events of one token. A reference stands for a predefined character or for one with a number;
any other and every part that is not well formed is delivered as nothing. -/
def eventsOf? : Token → Option (List ReaderEvent)
  | .start name attrs => some [.start name attrs]
  | .empty name attrs => some [.start name attrs, .close]
  | .close => some [.close]
  | .text content => some [.text content]
  | .reference name =>
    (Markup.textReference? name.toList).map fun c => [.text (String.singleton c)]
  | .skipped | .finish => some []
  | .badTag | .broken => none

/-- The events of tokens, if all of them are well formed. -/
def delivered? : List (Nat × Token) → Option (List ReaderEvent)
  | [] => some []
  | (_, token) :: rest =>
    (eventsOf? token).bind fun es => (delivered? rest).map (es ++ ·)

/-- The tree from one place on, up to the end of what is around it. -/
inductive Fragment
  | done
  | text (content : String) (rest : Fragment)
  | element (name : String) (attrs : List (String × String)) (inner rest : Fragment)

namespace Fragment

/-- The events in order. -/
def events : Fragment → List ReaderEvent
  | .done => []
  | .text content rest => .text content :: rest.events
  | .element name attrs inner rest =>
    .start name attrs :: (inner.events ++ .close :: rest.events)

/-- The text directly at this place: the texts inside elements are left out. -/
def ownText : Fragment → String
  | .done => ""
  | .text content rest => content ++ rest.ownText
  | .element _ _ _ rest => rest.ownText

/-- The elements directly at this place: name, attributes and content. -/
def elements : Fragment → List (String × List (String × String) × Fragment)
  | .done => []
  | .text _ rest => rest.elements
  | .element name attrs inner rest => (name, attrs, inner) :: rest.elements

/-- The events tell where the tree ends: behind it is the end of what is around it, or nothing. -/
theorem events_append_inj {c d : Fragment} {es fs : List ReaderEvent}
    (hes : ∀ e ∈ es.head?, e = .close) (hfs : ∀ e ∈ fs.head?, e = .close)
    (h : c.events ++ es = d.events ++ fs) : c = d ∧ es = fs := by
  induction c generalizing d es fs with
  | done =>
    change es = d.events ++ fs at h
    cases d with
    | done => exact ⟨rfl, h⟩
    | text content rest =>
      subst h
      cases hes _ rfl
    | element name attrs inner rest =>
      subst h
      cases hes _ rfl
  | text content rest ih =>
    cases d with
    | done =>
      change _ = fs at h
      subst h
      cases hfs _ rfl
    | text content' rest' =>
      obtain ⟨hfirst, hrest⟩ := List.cons.inj h
      cases hfirst
      obtain ⟨rfl, hbehind⟩ := ih hes hfs hrest
      exact ⟨rfl, hbehind⟩
    | element name attrs inner rest' => cases (List.cons.inj h).1
  | element name attrs inner rest inner_ih rest_ih =>
    cases d with
    | done =>
      change _ = fs at h
      subst h
      cases hfs _ rfl
    | text content rest' => cases (List.cons.inj h).1
    | element name' attrs' inner' rest' =>
      simp only [events, List.cons_append, List.append_assoc] at h
      obtain ⟨hfirst, hothers⟩ := List.cons.inj h
      cases hfirst
      obtain ⟨rfl, hclose⟩ := inner_ih (by simp) (by simp) hothers
      obtain ⟨rfl, hbehind⟩ := rest_ih hes hfs (List.cons.inj hclose).2
      exact ⟨rfl, hbehind⟩

/-- A tree is known from its events. -/
theorem events_injective {c d : Fragment} (h : c.events = d.events) : c = d := by
  have hend : c.events ++ [] = d.events ++ [] := by rw [h]
  exact (events_append_inj (by simp) (by simp) hend).1

end Fragment

/-! ### Names -/

/-- The name of an element: without what stands before a colon, where namespaces are resolved. -/
def nameIn (aware : Bool) (name : String) : String :=
  if aware then ((Document.splitName name).getD ("", name)).2 else name

/-- Whether an attribute declares the name of a namespace. -/
def isDeclaration (aware : Bool) (name : String) : Bool :=
  aware && (Document.declaredName? name).isSome

/-- The property that an attribute is assigned to. A name with nothing behind its colon stays as it
is. -/
def propertyIn (aware : Bool) (name : String) : String :=
  if (nameIn aware name).isEmpty then name else nameIn aware name

/-- The properties that the attributes of a tag name, with their values. -/
def assignments (aware : Bool) (attrs : List (String × String)) : List (String × String) :=
  (attrs.filter fun a => !isDeclaration aware a.1).map fun a => (propertyIn aware a.1, a.2)

/-- An attribute that is resolved is known to rules by the property that it is assigned to. -/
theorem resolveAttribute_eq_ok {κ : Type} {b : Binder κ} {name value : String} {a : Attribute}
    (h : Document.resolveAttribute b name value = .ok a) :
    a.name = propertyIn true name ∧ a.value = value := by
  unfold Document.resolveAttribute at h
  unfold propertyIn nameIn
  rw [if_pos rfl]
  cases hsplit : Document.splitName name with
  | none =>
    rw [hsplit] at h
    cases h
    exact ⟨rfl, rfl⟩
  | some parts =>
    rw [hsplit] at h
    dsimp only at h
    cases hresolve : Document.resolve b parts.1 with
    | error fault =>
      rw [hresolve] at h
      cases h
    | ok uri =>
      rw [hresolve] at h
      cases h
      exact ⟨rfl, rfl⟩

/-- The attributes that are resolved are those that are no declarations. -/
theorem resolveAttributes_eq_ok {κ : Type} {b : Binder κ} {attrs : List (String × String)}
    {attributes : Attributes} (h : Document.resolveAttributes b attrs = .ok attributes) :
    attributes.map (fun a => (a.name, a.value)) = assignments true attrs := by
  have hown : attrs.filter (fun a => !isDeclaration true a.1) =
      attrs.filter fun a => (Document.declaredName? a.1).isNone :=
    List.filter_congr fun a _ => by simp [isDeclaration]
  unfold Document.resolveAttributes at h
  unfold assignments
  rw [hown]
  generalize attrs.filter (fun a => (Document.declaredName? a.1).isNone) = own at h
  induction own generalizing attributes with
  | nil =>
    cases h
    rfl
  | cons a rest ih =>
    rw [List.mapM_cons] at h
    cases hfirst : Document.resolveAttribute b a.1 a.2 with
    | error fault =>
      rw [hfirst] at h
      cases h
    | ok first =>
      cases hothers : rest.mapM fun a => Document.resolveAttribute b a.1 a.2 with
      | error fault =>
        rw [hfirst, hothers] at h
        cases h
      | ok others =>
        rw [hfirst, hothers] at h
        cases h
        obtain ⟨hname, hvalue⟩ := resolveAttribute_eq_ok hfirst
        rw [List.map_cons, List.map_cons, hname, hvalue, ih hothers]

/-- What a property of an element's object holds. The element's own text counts as the property
`text` unless it is blank, and of two attributes with one name the later counts. -/
def propertyOf? (o : Options) (attrs : List (String × String)) (text property : String) :
    Option Value :=
  if property = "text" ∧ Text.isAllBlank text = false then
    some (.text (if o.trimText then Text.trim text else text))
  else (Dict.lookup property (assignments o.namespaceAware attrs).reverse).map .text

/-- Every element has a name, and no slash in it. -/
def Fragment.NamesFit (aware : Bool) : Fragment → Prop
  | .done => True
  | .text _ rest => rest.NamesFit aware
  | .element name _ inner rest =>
    (nameIn aware name ≠ "" ∧ '/' ∉ (nameIn aware name).toList) ∧
      inner.NamesFit aware ∧ rest.NamesFit aware

/-- A label stands for a namespace where the labels `scope` are declared. -/
def IsBound (scope : List String) (label : String) : Prop := label = "xml" ∨ label ∈ scope

/-- The labels in a start tag are declared in it or around it. An element needs no namespace if
there is nothing before its colon. -/
structure TagBound (scope : List String) (name : String) (attrs : List (String × String)) :
    Prop where
  element : ∀ p ∈ Document.splitName name, p.1 ≠ "" → IsBound scope p.1
  attributes : ∀ a ∈ attrs, Document.declaredName? a.1 = none →
    ∀ p ∈ Document.splitName a.1, IsBound scope p.1

/-- The labels that a start tag declares. -/
def declaredIn (attrs : List (String × String)) : List String :=
  (Document.declarations attrs).map (·.1)

/-- Every label is declared where it is used, or around it. -/
def Fragment.LabelsBound : List String → Fragment → Prop
  | _, .done => True
  | scope, .text _ rest => rest.LabelsBound scope
  | scope, .element name attrs inner rest =>
    TagBound (declaredIn attrs ++ scope) name attrs ∧
      inner.LabelsBound (declaredIn attrs ++ scope) ∧ rest.LabelsBound scope

/-! Whether a document is one of those can be found out. -/

instance decidableNamesFit (aware : Bool) : (c : Fragment) → Decidable (c.NamesFit aware)
  | .done => inferInstanceAs (Decidable True)
  | .text _ rest => decidableNamesFit aware rest
  | .element name _ inner rest =>
    have := decidableNamesFit aware inner
    have := decidableNamesFit aware rest
    inferInstanceAs (Decidable ((nameIn aware name ≠ "" ∧ '/' ∉ (nameIn aware name).toList) ∧
      inner.NamesFit aware ∧ rest.NamesFit aware))

instance (scope : List String) (label : String) : Decidable (IsBound scope label) :=
  inferInstanceAs (Decidable (label = "xml" ∨ label ∈ scope))

instance (scope : List String) (name : String) (attrs : List (String × String)) :
    Decidable (TagBound scope name attrs) :=
  decidable_of_iff ((∀ p ∈ Document.splitName name, p.1 ≠ "" → IsBound scope p.1) ∧
      ∀ a ∈ attrs, Document.declaredName? a.1 = none →
        ∀ p ∈ Document.splitName a.1, IsBound scope p.1)
    ⟨fun h => ⟨h.1, h.2⟩, fun h => ⟨h.element, h.attributes⟩⟩

instance decidableLabelsBound : (scope : List String) → (c : Fragment) →
    Decidable (c.LabelsBound scope)
  | _, .done => inferInstanceAs (Decidable True)
  | scope, .text _ rest => decidableLabelsBound scope rest
  | scope, .element name attrs inner rest =>
    have := decidableLabelsBound (declaredIn attrs ++ scope) inner
    have := decidableLabelsBound scope rest
    inferInstanceAs (Decidable (TagBound (declaredIn attrs ++ scope) name attrs ∧
      inner.LabelsBound (declaredIn attrs ++ scope) ∧ rest.LabelsBound scope))

/-! ### Images -/

/-- An object is the image of an element, given the element's own text and the object's children. -/
structure Mapped (look : ObjectId → Option Bean) (o : Options) (name : String)
    (attrs : List (String × String)) (text : String) (id : ObjectId) (children : List Value) :
    Prop where
  shown : ∃ bean : DynamicBean, look id = some (.dynamic bean) ∧
    bean.typeName = nameIn o.namespaceAware name ∧
    (∀ property, bean.properties.get? property = propertyOf? o attrs text property) ∧
    bean.children = children

/-- Values are the images of the elements at one place, in order. -/
def Images (look : ObjectId → Option Bean) (o : Options) : Fragment → List Value → Prop
  | .done, vs => vs = []
  | .text _ rest, vs => Images look o rest vs
  | .element name attrs inner rest, vs => ∃ id children others, vs = .object id :: others ∧
    Mapped look o name attrs inner.ownText id children ∧
    Images look o inner children ∧ Images look o rest others

variable {look look' : ObjectId → Option Bean} {o : Options}

/-- Images stay where nothing that is seen changes. -/
theorem Images.mono (hlook : ∀ id bean, look id = some bean → look' id = some bean) {c : Fragment}
    {vs : List Value} (h : Images look o c vs) : Images look' o c vs := by
  induction c generalizing vs with
  | done => exact h
  | text content rest ih => exact ih h
  | element name attrs inner rest inner_ih rest_ih =>
    obtain ⟨id, children, others, hvs, ⟨bean, hbean, hown⟩, hinner, hrest⟩ := h
    exact ⟨id, children, others, hvs, ⟨bean, hlook id _ hbean, hown⟩, inner_ih hinner,
      rest_ih hrest⟩

/-- Where there is one element, there is one image. -/
theorem Images.of_single {c inner : Fragment} {name : String} {attrs : List (String × String)}
    {vs : List Value} (hsingle : c.elements = [(name, attrs, inner)]) (h : Images look o c vs) :
    ∃ id children, vs = [.object id] ∧ Mapped look o name attrs inner.ownText id children ∧
      Images look o inner children := by
  have hnone : ∀ {d : Fragment} {us : List Value}, d.elements = [] → Images look o d us →
      us = [] := by
    intro d us hd hus
    induction d with
    | done => exact hus
    | text content rest ih => exact ih hd hus
    | element _ _ _ _ _ _ => cases hd
  induction c with
  | done => cases hsingle
  | text content rest ih => exact ih hsingle h
  | element own ownAttrs ownInner rest _ _ =>
    obtain ⟨id, children, others, rfl, hmapped, hinner, hrest⟩ := h
    obtain ⟨hown, hothers⟩ := List.cons.inj hsingle
    cases hown
    exact ⟨id, children, by rw [hnone hothers hrest], hmapped, hinner⟩

end XmlBinding.Generic
