import XmlBinding.Dispatch
import XmlBinding.Proofs.Outcome

/-!
# Well-nested events

A document reaches the dispatcher as a flat sequence of events. A sequence in which every start tag
has its end tag is the same thing as a tree, written here as what stands at one place together with
everything behind it. An end tag brings names of its own, which need not be those of its start tag.
-/
namespace XmlBinding

/-- The names and attributes of a start tag. -/
structure StartTag where
  uri : String
  localName : String
  qualifiedName : String
  attrs : Attributes

/-- The names of an end tag. -/
structure EndTag where
  uri : String
  localName : String
  qualifiedName : String

def StartTag.name (t : StartTag) : String := elementName t.localName t.qualifiedName

def EndTag.name (t : EndTag) : String := elementName t.localName t.qualifiedName

/-- One event inside a document. -/
inductive DocumentEvent
  | start (tag : StartTag)
  | text (content : String)
  | close (tag : EndTag)

/-- The events from one place on, up to the end of what is around it. -/
inductive Content
  | done
  | text (content : String) (rest : Content)
  | element (tag : StartTag) (inner : Content) (closing : EndTag) (rest : Content)

namespace Content

/-- The events in order. -/
def events : Content → List DocumentEvent
  | .done => []
  | .text content rest => .text content :: rest.events
  | .element tag inner closing rest =>
    .start tag :: (inner.events ++ .close closing :: rest.events)

/-- The text directly at this place: the texts inside elements are left out. -/
def ownText : Content → String
  | .done => ""
  | .text content rest => content ++ rest.ownText
  | .element _ _ _ rest => rest.ownText

end Content

/-! ### Sequences of events -/

/-- Whether the events close every element that they open, and `opened` elements besides. -/
def closesAll : Nat → List DocumentEvent → Bool
  | opened, [] => opened == 0
  | opened, .start _ :: rest => closesAll (opened + 1) rest
  | opened, .text _ :: rest => closesAll opened rest
  | 0, .close _ :: _ => false
  | opened + 1, .close _ :: rest => closesAll opened rest

/-- Every end tag has its start tag in front of it, and every start tag its end tag behind it. -/
def WellNested (es : List DocumentEvent) : Prop := closesAll 0 es = true

instance (es : List DocumentEvent) : Decidable (WellNested es) :=
  inferInstanceAs (Decidable (closesAll 0 es = true))

theorem closesAll_events (c : Content) (opened : Nat) (rest : List DocumentEvent) :
    closesAll opened (c.events ++ rest) = closesAll opened rest := by
  induction c generalizing opened rest with
  | done => rfl
  | text content behind ih => exact ih opened rest
  | element tag inner closing behind inner_ih behind_ih =>
    simp only [Content.events, List.cons_append, List.append_assoc, closesAll]
    rw [inner_ih (opened + 1), closesAll, behind_ih]

/-- Events that close everything begin with a tree, and what follows it closes an element that was
open before. -/
theorem exists_content (es : List DocumentEvent) (opened : Nat) (h : closesAll opened es = true) :
    ∃ (c : Content) (rest : List DocumentEvent), es = c.events ++ rest ∧
      (opened = 0 → rest = []) ∧
      (∀ outer, opened = outer + 1 →
        ∃ tag behind, rest = .close tag :: behind ∧ closesAll outer behind = true) := by
  induction hn : es.length using Nat.strongRecOn generalizing es opened with
  | ind n ih =>
    cases es with
    | nil =>
      have h0 : opened = 0 := by simpa [closesAll] using h
      exact ⟨.done, [], rfl, fun _ => rfl, fun outer ho => by omega⟩
    | cons e es =>
      simp only [List.length_cons] at hn
      cases e with
      | text content =>
        obtain ⟨c, rest, rfl, hrest⟩ := ih es.length (by omega) es opened h rfl
        exact ⟨.text content c, rest, rfl, hrest⟩
      | close tag =>
        cases opened with
        | zero => simp [closesAll] at h
        | succ outer =>
          refine ⟨.done, .close tag :: es, rfl, fun ho => by omega, fun o ho => ?_⟩
          obtain rfl : outer = o := by omega
          exact ⟨tag, es, rfl, h⟩
      | start tag =>
        obtain ⟨inner, rest, rfl, -, hrest⟩ := ih es.length (by omega) es (opened + 1) h rfl
        obtain ⟨closing, behind, rfl, hbehind⟩ := hrest opened rfl
        simp only [List.length_append, List.length_cons] at hn
        obtain ⟨c, rest, rfl, hc⟩ := ih behind.length (by omega) behind opened hbehind rfl
        refine ⟨.element tag inner closing c, rest, ?_, hc⟩
        simp [Content.events]

/-- The well-nested sequences are the sequences of trees. -/
theorem wellNested_iff {es : List DocumentEvent} :
    WellNested es ↔ ∃ c : Content, c.events = es := by
  constructor
  · intro h
    obtain ⟨c, rest, rfl, hrest, -⟩ := exists_content es 0 h
    exact ⟨c, by rw [hrest rfl, List.append_nil]⟩
  · rintro ⟨c, rfl⟩
    have h := closesAll_events c 0 []
    rwa [List.append_nil] at h

/-! ### Delivery -/

section Delivery

variable {κ : Type} (x : Extension κ)

/-- Hand one event to the binder. -/
def deliver : DocumentEvent → Action κ BindError Unit
  | .start tag => startElement x tag.uri tag.localName tag.qualifiedName tag.attrs
  | .text content => modify (·.characters content)
  | .close tag => endElement x tag.uri tag.localName tag.qualifiedName

/-- Hand events to the binder one after the other, up to the first that fails. -/
def deliverAll (es : List DocumentEvent) : Action κ BindError Unit := es.forM (deliver x)

theorem deliverAll_append (front back : List DocumentEvent) :
    deliverAll x (front ++ back) = (deliverAll x front >>= fun _ => deliverAll x back) :=
  Action.forM_append front back

/-- An element is its start tag, what is inside, and its end tag. -/
theorem deliverAll_element (tag : StartTag) (inner : Content) (closing : EndTag) (rest : Content) :
    deliverAll x (Content.element tag inner closing rest).events =
      (deliver x (.start tag) >>= fun _ => deliverAll x inner.events >>= fun _ =>
        deliver x (.close closing) >>= fun _ => deliverAll x rest.events) := by
  change (deliver x (.start tag) >>= fun _ =>
    deliverAll x (inner.events ++ .close closing :: rest.events)) = _
  rw [deliverAll_append]
  rfl

end Delivery

/-! ### Content of a captured node -/

namespace Capture

/-- Whether a captured node, if there is one, has only just been started. -/
def Fresh (c : Option Capture) : Prop := ∀ own, c = some own → own.nested = []

/-- The captured node behind some content. -/
def take (c : Capture) : Content → Capture
  | .done => c
  | .text content rest => (c.text content).take rest
  | .element tag inner _ rest =>
    let filled := (c.start tag.uri tag.name tag.attrs).take inner
    (filled.close?.getD filled).take rest

theorem length_nested_add (c : Capture) (child : Node) :
    (c.add child).nested.length = c.nested.length := by
  unfold add
  split <;> simp [*]

theorem length_nested_text (c : Capture) (content : String) :
    (c.text content).nested.length = c.nested.length := by
  unfold text
  split
  · rfl
  · exact length_nested_add c _

/-- The number of elements that are open inside a captured node. -/
def inside : Option Capture → Nat
  | some c => c.nested.length
  | none => 0

theorem length_nested_close {c c' : Capture} (h : c.close? = some c') :
    c.nested.length = c'.nested.length + 1 := by
  unfold close? at h
  split at h
  · cases h
  · next top outer hnested =>
    cases h
    rw [length_nested_add, hnested, List.length_cons]

/-- What cannot be closed has nothing open inside it. -/
theorem nested_eq_nil {c : Capture} (h : c.close? = none) : c.nested = [] := by
  unfold close? at h
  split at h
  · assumption
  · cases h

/-- An element that is open inside the node can be closed. -/
theorem close?_of_length {c : Capture} {n : Nat} (h : c.nested.length = n + 1) :
    ∃ c', c.close? = some c' ∧ c'.nested.length = n := by
  unfold close?
  cases hc : c.nested with
  | nil => simp [hc] at h
  | cons top outer =>
    refine ⟨_, rfl, ?_⟩
    rw [length_nested_add]
    simpa [hc] using h

/-- Content leaves as many elements open inside the node as it found. -/
theorem length_nested_take (c : Capture) (k : Content) :
    (c.take k).nested.length = c.nested.length := by
  induction k generalizing c with
  | done => rfl
  | text content rest ih => rw [take, ih, length_nested_text]
  | element tag inner closing rest inner_ih rest_ih =>
    have hf := inner_ih (c.start tag.uri tag.name tag.attrs)
    obtain ⟨c', hc, hl⟩ := close?_of_length (hf.trans (List.length_cons ..))
    simp only [take, hc, Option.getD_some]
    rw [rest_ih, hl]

end Capture

theorem startElement_captured {κ : Type} (x : Extension κ) (tag : StartTag) (b : Binder κ)
    (c : Capture) (h : b.capture = some c) :
    deliver x (.start tag) b =
      .ok () { b with capture := some (c.start tag.uri tag.name tag.attrs) } := by
  change startElement x tag.uri tag.localName tag.qualifiedName tag.attrs b = _
  unfold startElement
  rw [Action.get_bind_run, h]
  rfl

theorem endElement_captured {κ : Type} (x : Extension κ) (tag : EndTag) (b : Binder κ)
    (c c' : Capture) (h : b.capture = some c) (hc : c.close? = some c') :
    deliver x (.close tag) b = .ok () { b with capture := some c' } := by
  have hopen : b.capture.bind (·.close?) = some c' := by rw [h, Option.bind_some, hc]
  change endElement x tag.uri tag.localName tag.qualifiedName b = _
  unfold endElement
  rw [Action.get_bind_run, hopen]
  rfl

/-- Inside a captured node content goes into the node, and nothing else happens. -/
theorem deliverAll_captured {κ : Type} (x : Extension κ) (k : Content) (b : Binder κ) (c : Capture)
    (h : b.capture = some c) :
    deliverAll x k.events b = .ok () { b with capture := some (c.take k) } := by
  induction k generalizing b c with
  | done =>
    change EStateM.Result.ok () b = _
    rw [Capture.take, ← h]
  | text content rest ih =>
    change deliverAll x rest.events (b.characters content) = _
    rw [ih _ (c.text content) (by simp [Binder.characters, h])]
    simp [Binder.characters, h, Capture.take]
  | element tag inner closing rest inner_ih rest_ih =>
    have hl := (c.start tag.uri tag.name tag.attrs).length_nested_take inner
    obtain ⟨c', hc, -⟩ := Capture.close?_of_length (hl.trans (List.length_cons ..))
    rw [deliverAll_element]
    refine Action.bind_eq_ok.mpr ⟨(), _, startElement_captured x tag b c h, ?_⟩
    refine Action.bind_eq_ok.mpr ⟨(), _, inner_ih _ _ rfl, ?_⟩
    refine Action.bind_eq_ok.mpr ⟨(), _, endElement_captured x closing _ _ c' rfl hc, ?_⟩
    rw [rest_ih _ c' rfl]
    simp only [Capture.take, hc, Option.getD_some]

end XmlBinding
