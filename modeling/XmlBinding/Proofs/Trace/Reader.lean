import Mathlib.Data.List.Forall2
import XmlBinding.Proofs.Fragment
import XmlBinding.Proofs.Trace

/-!
# The trace of a text

A text reaches the binder token by token, and every token makes at most two events. The reader keeps
the elements that are open, so an end tag is always the one that is due. Everything that holds of a
delivery therefore holds of every text, up to any of its tokens.
-/
namespace XmlBinding

open Generic (ReaderEvent assignments delivered? eventsOf? isDeclaration nameIn)
open Markup (Token)

variable {κ : Type} {x : Extension κ}

deriving instance DecidableEq for OpenElement

/-! ### Due end tags -/

def StartTag.endTag (t : StartTag) : EndTag := ⟨t.uri, t.localName, t.qualifiedName⟩

def OpenElement.endTag (e : OpenElement) : EndTag := ⟨e.uri, e.localName, e.qualifiedName⟩

/-- Events in which every end tag is the one that is due: those that are due in front of them, and
those that are due behind them, the innermost first. -/
inductive Pairs : List EndTag → List DocumentEvent → List EndTag → Prop
  | nil (due : List EndTag) : Pairs due [] due
  | start {tag : StartTag} {due due' : List EndTag} {es : List DocumentEvent}
      (h : Pairs (tag.endTag :: due) es due') : Pairs due (.start tag :: es) due'
  | text {content : String} {due due' : List EndTag} {es : List DocumentEvent}
      (h : Pairs due es due') : Pairs due (.text content :: es) due'
  | close {tag : EndTag} {due due' : List EndTag} {es : List DocumentEvent}
      (h : Pairs due es due') : Pairs (tag :: due) (.close tag :: es) due'

namespace Pairs

variable {due mid due' : List EndTag} {es es' : List DocumentEvent}

theorem append (h : Pairs due es mid) (h' : Pairs mid es' due') : Pairs due (es ++ es') due' := by
  induction h with
  | nil => exact h'
  | start _ ih => exact .start (ih h')
  | text _ ih => exact .text (ih h')
  | close _ ih => exact .close (ih h')

theorem split (h : Pairs due (es ++ es') due') : ∃ mid, Pairs due es mid ∧ Pairs mid es' due' := by
  induction es generalizing due with
  | nil => exact ⟨due, .nil due, h⟩
  | cons e rest ih =>
    cases h with
    | start h =>
      obtain ⟨mid, hfront, hback⟩ := ih h
      exact ⟨mid, .start hfront, hback⟩
    | text h =>
      obtain ⟨mid, hfront, hback⟩ := ih h
      exact ⟨mid, .text hfront, hback⟩
    | close h =>
      obtain ⟨mid, hfront, hback⟩ := ih h
      exact ⟨mid, .close hfront, hback⟩

/-- Behind content the same end tags are due. -/
theorem behind_content (c : Content) (h : Pairs due (c.events ++ es) due') : Pairs due es due' := by
  induction c generalizing due es with
  | done => exact h
  | text content rest ih =>
    cases h with
    | text h => exact ih h
  | element tag inner closing rest inner_ih rest_ih =>
    simp only [Content.events, List.cons_append, List.append_assoc] at h
    cases h with
    | start h =>
      cases inner_ih h with
      | close h => exact rest_ih h

/-- The end tag of an element has the names of its start tag. -/
theorem closing_eq {tag : StartTag} {c : Content} {closing : EndTag}
    (h : Pairs due (.start tag :: (c.events ++ .close closing :: es)) due') :
    closing = tag.endTag := by
  cases h with
  | start h =>
    cases h.behind_content with
    | close _ => rfl

theorem closesAll (h : Pairs due es []) : closesAll due.length es = true := by
  generalize hlast : [] = last at h
  induction h with
  | nil =>
    subst hlast
    rfl
  | start _ ih => exact ih hlast
  | text _ ih => exact ih hlast
  | close _ ih => exact ih hlast

/-- The end tag that is due behind some events was due before and all above it has been closed, or
its start tag is the last among the events that is still open. -/
theorem opening_or {tag : EndTag} {outer : List EndTag} (h : Pairs due es (tag :: outer)) :
    (∃ above, due = above ++ tag :: outer ∧ XmlBinding.closesAll above.length es = true) ∨
      ∃ earlier opening, ∃ inner : Content, es = earlier ++ .start opening :: inner.events ∧
        tag = opening.endTag := by
  generalize hlast : tag :: outer = last at h
  induction h with
  | nil =>
    subst hlast
    exact .inl ⟨[], rfl, rfl⟩
  | @start opening due _ es _ ih =>
    obtain ⟨above, habove, hcloses⟩ | ⟨earlier, later, inner, rfl, rfl⟩ := ih hlast
    · cases above with
      | nil =>
        obtain ⟨inner, rfl⟩ := wellNested_iff.mp hcloses
        exact .inr ⟨[], opening, inner, rfl, (List.cons.inj (habove.trans hlast.symm)).1.symm⟩
      | cons first above => exact .inl ⟨above, (List.cons.inj habove).2, hcloses⟩
    · exact .inr ⟨.start opening :: earlier, later, inner, rfl, rfl⟩
  | @text content _ _ _ _ ih =>
    obtain hopen | ⟨earlier, later, inner, rfl, rfl⟩ := ih hlast
    · exact .inl hopen
    · exact .inr ⟨.text content :: earlier, later, inner, rfl, rfl⟩
  | @close closing _ _ _ _ ih =>
    obtain ⟨above, rfl, hcloses⟩ | ⟨earlier, later, inner, rfl, rfl⟩ := ih hlast
    · exact .inl ⟨closing :: above, rfl, hcloses⟩
    · exact .inr ⟨.close closing :: earlier, later, inner, rfl, rfl⟩

/-- In a document every end tag ends an element. -/
theorem opening {closing : EndTag} (h : Pairs [] (es ++ .close closing :: es') due') :
    ∃ earlier tag, ∃ inner : Content, es = earlier ++ .start tag :: inner.events ∧
      closing = tag.endTag := by
  obtain ⟨mid, hfront, hback⟩ := h.split
  cases hback with
  | close _ =>
    obtain ⟨above, habove, -⟩ | hopening := hfront.opening_or
    · cases above <;> cases habove
    · exact hopening

end Pairs

/-! ### Names of namespaces -/

namespace Binder

theorem unread_bindName (b : Binder κ) (label uri : String) :
    (b.bindName label uri).unread = b.unread := by
  rw [bindName_eq]
  rfl

theorem unread_unbindName (b : Binder κ) (label : String) :
    (b.unbindName label).unread = b.unread := by
  rw [unbindName_eq]
  rfl

theorem unread_bindAll (ds : List (String × String)) (b : Binder κ) :
    (ds.foldl (fun b d => b.bindName d.1 d.2) b).unread = b.unread := by
  induction ds generalizing b with
  | nil => rfl
  | cons d rest ih => exact (ih _).trans (b.unread_bindName ..)

theorem unread_unbindAll (labels : List String) (b : Binder κ) :
    (labels.foldl unbindName b).unread = b.unread := by
  induction labels generalizing b with
  | nil => rfl
  | cons label rest ih => exact (ih _).trans (b.unread_unbindName label)

end Binder

namespace Document

variable {b b' : Binder κ} {aware : Bool} {here : Position} {opened opened' : List OpenElement}

/-- A fault does not get through. -/
theorem liftFault_eq_ok {α : Type} {r : Except DocumentFault α} {a : α}
    (h : liftFault here r b = .ok a b') : r = .ok a ∧ b' = b := by
  cases r <;> cases h
  exact ⟨rfl, rfl⟩

/-- A fault is reported at its position, and nothing has been done. -/
theorem liftFault_eq_error {α : Type} {r : Except DocumentFault α} {halt : Halt BindError}
    (h : (liftFault here r : Action κ BindError α) b = .error halt b') :
    (∃ fault, halt = .error (.document here fault)) ∧ b' = b := by
  cases r <;> cases h
  exact ⟨⟨_, rfl⟩, rfl⟩

theorem keeps_liftFault {α γ : Type} {view : Binder κ → γ} (here : Position)
    (r : Except DocumentFault α) : (liftFault here r : Action κ BindError α).Keeps view :=
  Action.keeps_lift _

/-- The names of an element are known from its tag. -/
theorem resolveElement_eq_ok {name : String} {declared : List String} {element : OpenElement}
    (h : resolveElement b name declared = .ok element) :
    element.qualifiedName = name ∧ element.localName = nameIn true name := by
  unfold resolveElement at h
  dsimp only at h
  split at h
  · cases h
    exact ⟨rfl, rfl⟩
  · cases hr : resolve b ((splitName name).getD ("", name)).1 with
    | error fault =>
      rw [hr] at h
      cases h
    | ok uri =>
      rw [hr] at h
      cases h
      exact ⟨rfl, rfl⟩

theorem resolveTag_eq_ok {name : String} {attrs : List (String × String)}
    {r : OpenElement × Attributes} (h : resolveTag aware here name attrs b = .ok r b') :
    b'.unread = b.unread ∧ r.1.qualifiedName = name ∧
      elementName r.1.localName r.1.qualifiedName = elementName (nameIn aware name) name ∧
      r.2.map (fun a => (a.name, a.value)) = assignments aware attrs := by
  unfold resolveTag at h
  cases aware with
  | false =>
    cases h
    have hall : attrs.filter (fun a => !isDeclaration false a.1) = attrs :=
      List.filter_eq_self.mpr fun _ _ => rfl
    refine ⟨rfl, rfl, (ite_self name).symm, ?_⟩
    unfold assignments
    rw [List.map_map, hall]
    rfl
  | true =>
    rw [if_pos rfl, Action.modify_bind_run, Action.get_bind_run] at h
    obtain ⟨attributes, m, hattributes, h⟩ := Action.bind_eq_ok.mp h
    obtain ⟨element, m', helement, ⟨⟩⟩ := Action.bind_eq_ok.mp h
    obtain ⟨hassigned, rfl⟩ := liftFault_eq_ok hattributes
    obtain ⟨hnames, rfl⟩ := liftFault_eq_ok helement
    obtain ⟨hqualified, hlocal⟩ := resolveElement_eq_ok hnames
    exact ⟨Binder.unread_bindAll _ b, hqualified, congrArg₂ elementName hlocal hqualified,
      Generic.resolveAttributes_eq_ok hassigned⟩

/-- To resolve a tag changes the labels only. -/
theorem keeps_resolveTag {γ : Type} {view : Binder κ → γ}
    (hbind : ∀ (b : Binder κ) label uri, view (b.bindName label uri) = view b) (name : String)
    (attrs : List (String × String)) :
    (resolveTag aware here name attrs : Action κ BindError _).Keeps view := by
  have hbinds : ∀ (ds : List (String × String)) (b : Binder κ),
      view (ds.foldl (fun b d => b.bindName d.1 d.2) b) = view b := fun ds => by
    induction ds with
    | nil => exact fun _ => rfl
    | cons d rest ih => exact fun b => (ih _).trans (hbind b ..)
  unfold resolveTag
  cases aware with
  | false => exact Action.keeps_pure _
  | true =>
    exact (Action.keeps_modify (hbinds _)).bind fun _ => Action.keeps_get.bind fun _ =>
      (Action.keeps_lift _).bind fun _ => (Action.keeps_lift _).bind fun _ => Action.keeps_pure _

/-- A tag that is not resolved is a fault. -/
theorem resolveTag_eq_error {name : String} {attrs : List (String × String)}
    {halt : Halt BindError} (h : resolveTag aware here name attrs b = .error halt b') :
    ∃ fault, halt = .error (.document here fault) := by
  unfold resolveTag at h
  cases aware with
  | false => cases h
  | true =>
    rw [if_pos rfl, Action.modify_bind_run, Action.get_bind_run] at h
    cases hattributes : (liftFault here _ : Action κ BindError Attributes) _ with
    | error halt' m =>
      rw [Action.bind_run_of_error hattributes] at h
      cases h
      exact (liftFault_eq_error hattributes).1
    | ok attributes m =>
      rw [Action.bind_run_of_ok hattributes] at h
      cases helement : (liftFault here _ : Action κ BindError OpenElement) m with
      | error halt' m' =>
        rw [Action.bind_run_of_error helement] at h
        cases h
        exact (liftFault_eq_error helement).1
      | ok element m' =>
        rw [Action.bind_run_of_ok helement] at h
        cases h

end Document

/-- The binder with which the reading of a text begins. -/
def Binder.atStart (b : Binder κ) (text : List Char) : Binder κ :=
  { b with position := some (Position.ofOffset text 0) }.startDocument

theorem Binder.capture_atStart (b : Binder κ) (text : List Char) :
    (b.atStart text).capture = b.capture :=
  congrArg Prod.snd (course_note { b with
    position := some (Position.ofOffset text 0) } .debug .dispatch "start document")

/-! ### Tokens -/

/-- The reader has come to a token. What is no token has no position of its own. -/
def Binder.reach (b : Binder κ) (here : Position) (token : Token) : Binder κ :=
  if token = .broken then b else { b with position := some here }

theorem Binder.unread_reach (b : Binder κ) (here : Position) (token : Token) :
    (b.reach here token).unread = b.unread := by
  unfold reach
  split <;> rfl

/-- The qualified names of the open elements behind a token, the innermost first. -/
def Markup.Token.openNames (opened : List String) : Token → List String
  | .start name _ => name :: opened
  | .close => opened.tail
  | _ => opened

/-- An event that a binder gets for one of the reader. -/
inductive Conveys (aware : Bool) : ReaderEvent → DocumentEvent → Prop
  | start {name : String} {attrs : List (String × String)} {tag : StartTag}
      (hqualified : tag.qualifiedName = name)
      (hname : tag.name = elementName (nameIn aware name) name)
      (hassigned : tag.attrs.map (fun a => (a.name, a.value)) = assignments aware attrs) :
      Conveys aware (.start name attrs) (.start tag)
  | text (content : String) : Conveys aware (.text content) (.text content)
  | close (tag : EndTag) : Conveys aware .close (.close tag)

/-- What holds of the names in the tags holds of the names of the elements. -/
theorem forall_names_of_conveys {aware : Bool} {rs : List ReaderEvent} {es : List DocumentEvent}
    (h : List.Forall₂ (Conveys aware) rs es) {p : String → Prop}
    (hp : ∀ name attrs, .start name attrs ∈ rs → p (elementName (nameIn aware name) name)) :
    ∀ tag, .start tag ∈ es → p tag.name := by
  intro tag htag
  induction h with
  | nil => cases htag
  | cons hfirst _ ih =>
    obtain rfl | htag := List.mem_cons.mp htag
    · cases hfirst with
      | start _ hname _ =>
        rw [hname]
        exact hp _ _ List.mem_cons_self
    · exact ih (fun name attrs hmem => hp name attrs (List.mem_cons_of_mem _ hmem)) htag

/-- What a reader hands to a binder: events that get through, with end tags that are due. -/
structure Handled (x : Extension κ) (aware : Bool) (rs : List ReaderEvent)
    (opened : List OpenElement) (b : Binder κ) (opened' : List OpenElement) (b' : Binder κ)
    (es : List DocumentEvent) (fs : List (Firing κ)) : Prop where
  conveys : List.Forall₂ (Conveys aware) rs es
  delivered : Delivered x es b fs b'
  pairs : Pairs (opened.map OpenElement.endTag) es (opened'.map OpenElement.endTag)

namespace Handled

variable {aware : Bool} {rs rs' : List ReaderEvent} {opened mid opened' : List OpenElement}
  {b m b' : Binder κ} {es es' : List DocumentEvent} {fs fs' : List (Firing κ)}

theorem nil (opened : List OpenElement) (b : Binder κ) :
    Handled x aware [] opened b opened b [] [] :=
  ⟨.nil, .done rfl, .nil _⟩

theorem append (h : Handled x aware rs opened b mid m es fs)
    (h' : Handled x aware rs' mid m opened' b' es' fs') :
    Handled x aware (rs ++ rs') opened b opened' b' (es ++ es') (fs ++ fs') :=
  ⟨List.rel_append h.conveys h'.conveys, h.delivered.append h'.delivered, h.pairs.append h'.pairs⟩

end Handled

namespace Document

variable {b b' : Binder κ} {aware : Bool} {here : Position} {opened opened' : List OpenElement}

theorem handled_start {name : String} {attrs : List (String × String)}
    (h : start x aware here name attrs opened b = .ok opened' b') :
    (∃ es fs, Handled x aware [.start name attrs] opened b opened' b' es fs) ∧
      opened'.map (·.qualifiedName) = name :: opened.map (·.qualifiedName) := by
  obtain ⟨⟨element, attributes⟩, m, hresolve, h⟩ := Action.bind_eq_ok.mp h
  obtain ⟨⟨⟩, m', hstart, ⟨⟩⟩ := Action.bind_eq_ok.mp h
  obtain ⟨hunread, hqualified, hname, hassigned⟩ := resolveTag_eq_ok hresolve
  let tag : StartTag := ⟨element.uri, element.localName, element.qualifiedName, attributes⟩
  obtain ⟨fs, hfs⟩ := deliver_eq_ok.mp (show deliver x (.start tag) m = .ok () b' from hstart)
  refine ⟨⟨[.start tag], fs ++ [], .cons (.start hqualified hname hassigned) .nil,
    .step hunread hfs (.done rfl), .start (.nil _)⟩, ?_⟩
  rw [List.map_cons, hqualified]

theorem handled_close (h : close x here opened b = .ok opened' b') :
    (∃ es fs, Handled x aware [.close] opened b opened' b' es fs) ∧
      opened'.map (·.qualifiedName) = (opened.map (·.qualifiedName)).tail := by
  unfold close at h
  cases opened with
  | nil => cases h
  | cons element outer =>
    obtain ⟨⟨⟩, m, hend, h⟩ := Action.bind_eq_ok.mp h
    cases h
    obtain ⟨fs, hfs⟩ := deliver_eq_ok.mp (show deliver x (.close element.endTag) b = .ok () m from
      hend)
    exact ⟨⟨[.close element.endTag], fs ++ [], .cons (.close _) .nil,
      .step rfl hfs (.done (Binder.unread_unbindAll _ m)), .close (.nil _)⟩, rfl⟩

theorem handled_characters (content : String) (opened : List OpenElement) (b : Binder κ) :
    ∃ es fs, Handled x aware [.text content] opened b opened (b.characters content) es fs :=
  ⟨[.text content], [] ++ [], .cons (.text content) .nil,
    .step rfl (.text content b) (.done rfl), .text (.nil _)⟩

theorem handled_handle {token : Token} (h : handle x aware here opened token b = .ok opened' b') :
    (∃ rs es fs, eventsOf? token = some rs ∧ Handled x aware rs opened b opened' b' es fs) ∧
      opened'.map (·.qualifiedName) = token.openNames (opened.map (·.qualifiedName)) := by
  unfold handle at h
  cases token with
  | start name attrs =>
    obtain ⟨⟨es, fs, hhandled⟩, hnames⟩ := handled_start h
    exact ⟨⟨_, es, fs, rfl, hhandled⟩, hnames⟩
  | empty name attrs =>
    obtain ⟨mid, m, hstart, hclose⟩ := Action.bind_eq_ok.mp h
    obtain ⟨⟨es, fs, hfront⟩, hmid⟩ := handled_start hstart
    obtain ⟨⟨es', fs', hback⟩, hnames⟩ := handled_close hclose
    refine ⟨⟨_, es ++ es', fs ++ fs', rfl, hfront.append hback⟩, ?_⟩
    rw [hnames, hmid]
    rfl
  | close =>
    obtain ⟨⟨es, fs, hhandled⟩, hnames⟩ := handled_close h
    exact ⟨⟨_, es, fs, rfl, hhandled⟩, hnames⟩
  | text content =>
    cases h
    obtain ⟨es, fs, hhandled⟩ := handled_characters content opened b
    exact ⟨⟨_, es, fs, rfl, hhandled⟩, rfl⟩
  | reference name =>
    dsimp only at h
    cases hc : Markup.textReference? name.toList with
    | some c =>
      rw [hc] at h
      cases h
      obtain ⟨es, fs, hhandled⟩ := handled_characters (String.singleton c) opened b
      refine ⟨⟨_, es, fs, ?_, hhandled⟩, rfl⟩
      rw [eventsOf?, hc, Option.map_some]
    | none =>
      rw [hc] at h
      cases h
  | skipped | finish =>
    cases h
    exact ⟨⟨_, [], [], rfl, .nil opened b⟩, rfl⟩
  | badTag | broken => cases h

/-- The first token is handled at its position, and the others behind it. -/
theorem handleAll_cons {cursor : Cursor} (offset : Nat) (token : Token) (rest : List (Nat × Token)) :
    handleAll x aware cursor opened ((offset, token) :: rest) b =
      (handle x aware ((cursor.seek offset).positionOf offset) opened token >>= fun opened' =>
        handleAll x aware (cursor.seek offset) opened' rest)
        (b.reach ((cursor.seek offset).positionOf offset) token) := by
  rw [handleAll]
  unfold Binder.reach
  dsimp only
  split <;> rfl

/-- Tokens that get through have handed their events to the binder, and the open elements behind
them are known from the tokens alone. -/
theorem handled_handleAll {cursor : Cursor} {tokens : List (Nat × Token)}
    (h : handleAll x aware cursor opened tokens b = .ok opened' b') :
    (∃ rs es fs, delivered? tokens = some rs ∧ Handled x aware rs opened b opened' b' es fs) ∧
      opened'.map (·.qualifiedName) =
        tokens.foldl (fun names entry => entry.2.openNames names)
          (opened.map (·.qualifiedName)) := by
  induction tokens generalizing cursor opened b with
  | nil =>
    cases h
    exact ⟨⟨_, [], [], rfl, .nil _ _⟩, rfl⟩
  | cons entry rest ih =>
    obtain ⟨offset, token⟩ := entry
    rw [handleAll_cons] at h
    obtain ⟨mid, m, htoken, hrest⟩ := Action.bind_eq_ok.mp h
    obtain ⟨⟨rs, es, fs, hrs, hfront⟩, hmid⟩ := handled_handle htoken
    obtain ⟨⟨rs', es', fs', hrs', hback⟩, hnames⟩ := ih hrest
    have hall := hfront.append hback
    refine ⟨⟨rs ++ rs', es ++ es', fs ++ fs', ?_, hall.conveys,
      hall.delivered.lead (b.unread_reach ..), hall.pairs⟩, ?_⟩
    · rw [delivered?, hrs, Option.bind_some, hrs', Option.map_some]
    rw [hnames, hmid, List.foldl_cons]

end Document

/-! ### Texts -/

/-- A document that gets through answers the root. -/
theorem parse_of_run_ok {text : String} {b m : Binder κ}
    (h : Document.run x text.toList b = .ok () m) : parse x text b = .ok m.root m :=
  Action.bind_run_of_ok (Action.attempt_of_ok h) _

/-- Behind a document that fails the binder is cleaned up. -/
theorem parse_of_run_error {text : String} {b m : Binder κ} {cause : BindError}
    (h : Document.run x text.toList b = .error (.error cause) m) :
    parse x text b = .error (.error cause) m.abandon :=
  Action.bind_run_of_ok (Action.attempt_of_error h) _

theorem parse_of_run_crash {text : String} {b m : Binder κ}
    (h : Document.run x text.toList b = .error .crash m) : parse x text b = .error .crash m :=
  Action.bind_run_of_error (Action.attempt_of_crash h) _

theorem run_of_parse_ok {text : String} {b b' : Binder κ} {root : Option Value}
    (h : parse x text b = .ok root b') : Document.run x text.toList b = .ok () b' := by
  cases hr : Document.run x text.toList b with
  | ok a m =>
    rw [parse_of_run_ok hr] at h
    cases h
    rfl
  | error halt m =>
    cases halt with
    | error cause => cases (parse_of_run_error hr).symm.trans h
    | crash => cases (parse_of_run_crash hr).symm.trans h

/-- A text that gets through has been read to its end, and no element is open there. -/
theorem handleAll_of_parse {text : String} {b b' : Binder κ} {root : Option Value}
    (h : parse x text b = .ok root b') :
    ∃ m, Document.handleAll x b.options.namespaceAware { rest := text.toList } []
      (Markup.scan text.toList) (b.atStart text.toList) = .ok [] m := by
  have hrun := run_of_parse_ok h
  unfold Document.run at hrun
  rw [Action.get_bind_run, Action.modify_bind_run] at hrun
  obtain ⟨opened, s, hread, hend⟩ := Action.bind_eq_ok.mp hrun
  cases opened with
  | nil => exact ⟨s, hread⟩
  | cons element outer => cases hend

end XmlBinding
