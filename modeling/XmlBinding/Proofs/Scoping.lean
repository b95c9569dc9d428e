import Mathlib.Data.List.TakeWhile
import XmlBinding.Proofs.Finish
import XmlBinding.Proofs.Spaces
import XmlBinding.Proofs.Trace.Offsets

/-!
# The scope of declarations

A declaration holds for the tag that makes it and for everything inside the element. The binder keeps
a stack of namespaces for every label, and the reader keeps the labels that each open element has
declared. Behind every token the stacks hold the declarations of the open elements, the innermost on
top, and below them what was bound before the document. So names mean what the innermost declaration
around them says, and behind the document every label means what it meant in front of it.
-/
namespace XmlBinding

open Markup (Token)

variable {κ : Type} {x : Extension κ}

deriving instance DecidableEq for Callback

/-! ### Tags as they are written -/

namespace Markup

/-- A tag that opens an element. -/
structure Opening where
  name : String
  attrs : List (String × String)

def Token.opening? : Token → Option Opening
  | .start name attrs | .empty name attrs => some ⟨name, attrs⟩
  | _ => none

/-- The tags of the elements that are open behind a token, the innermost first. -/
def Token.openings (around : List Opening) : Token → List Opening
  | .start name attrs => ⟨name, attrs⟩ :: around
  | .close => around.tail
  | _ => around

/-- The tags of the elements that are open behind some tokens, the innermost first. -/
def openings (tokens : List (Nat × Token)) : List Opening :=
  tokens.foldl (fun around entry => entry.2.openings around) []

end Markup

namespace Document

open Markup (Opening)

/-- A name that consists of a label, a colon and a local name. The colon is the first one. -/
structure Prefixed (name label localName : String) : Prop where
  name_eq : name = label ++ ":" ++ localName
  first : ':' ∉ label.toList

/-- An attribute of this name declares the label; the empty label is for names without one. -/
def Declares (name label : String) : Prop := name = "xmlns" ∧ label = "" ∨ name = "xmlns:" ++ label

theorem forall_ne_colon_iff {cs : List Char} :
    (∀ c ∈ cs, decide (c ≠ ':') = true) ↔ ':' ∉ cs := by
  simp only [decide_eq_true_eq, ne_eq]
  exact ⟨fun h hmem => h ':' hmem rfl, fun h c hc heq => h (heq ▸ hc)⟩

theorem splitName_eq_none_iff {name : String} : splitName name = none ↔ ':' ∉ name.toList := by
  rw [← forall_ne_colon_iff, ← List.dropWhile_eq_nil_iff]
  unfold splitName
  split
  · next c rest h =>
    rw [h]
    exact iff_of_false nofun nofun
  · next h => exact iff_of_true rfl h

theorem splitName_eq_some_iff {name label localName : String} :
    splitName name = some (label, localName) ↔ Prefixed name label localName := by
  constructor
  · intro h
    unfold splitName at h
    split at h
    · next c rest hdrop =>
      obtain ⟨rfl, rfl⟩ := Prod.mk.inj (Option.some.inj h)
      have hcolon : c = ':' := by
        have hhead := List.head?_dropWhile_not (· ≠ ':') name.toList
        rw [hdrop] at hhead
        simpa using hhead
      have hsplit := List.takeWhile_append_dropWhile (p := (· ≠ ':')) (l := name.toList)
      rw [hdrop, hcolon] at hsplit
      refine ⟨String.ext ?_, ?_⟩
      · simpa using hsplit.symm
      · rw [String.toList_ofList]
        exact forall_ne_colon_iff.mp fun c hc => List.mem_takeWhile_imp (p := (· ≠ ':')) hc
    · cases h
  · rintro ⟨rfl, hfirst⟩
    have hplain := forall_ne_colon_iff.mpr hfirst
    have hname : (label ++ ":" ++ localName).toList = label.toList ++ ':' :: localName.toList := by
      simp
    unfold splitName
    rw [hname, List.dropWhile_append_of_pos hplain, List.takeWhile_append_of_pos hplain]
    simp

theorem Prefixed.unique {name label label' localName localName' : String}
    (h : Prefixed name label localName) (h' : Prefixed name label' localName') : label = label' :=
  congrArg Prod.fst (Option.some.inj
    ((splitName_eq_some_iff.mpr h).symm.trans (splitName_eq_some_iff.mpr h')))

theorem Prefixed.mem_colon {name label localName : String} (h : Prefixed name label localName) :
    ':' ∈ name.toList := by
  rw [h.name_eq]
  simp

theorem declaredName?_eq_some_iff {name label : String} :
    declaredName? name = some label ↔ Declares name label := by
  unfold declaredName? Declares
  split
  · next h =>
    subst h
    have hlong : "xmlns" ≠ "xmlns:" ++ label := fun heq => by
      have hlength : 5 = 6 + label.length :=
        (congrArg String.length heq).trans (String.length_append ..)
      omega
    simp [hlong, eq_comm]
  · next h =>
    have hsplit : splitName name = some ("xmlns", label) ↔ name = "xmlns:" ++ label :=
      splitName_eq_some_iff.trans ⟨fun hp => hp.name_eq, fun hname => ⟨hname, by decide⟩⟩
    simp only [h, false_and, false_or, ← hsplit]
    split
    · next own heq => simp [heq]
    · next hother =>
      refine ⟨nofun, fun heq => (hother label heq).elim⟩

/-! ### What names mean -/

/-- The declarations of some tags, the innermost first. -/
def scopeOf (tags : List Opening) : List (String × String) :=
  tags.flatMap fun tag => (declarations tag.attrs).reverse

/-- What a label stands for inside some elements: what the innermost declaration of it says, or what
it stands for outside. The label `xml` always stands for the same namespace. -/
def uriIn? (outside : String → Option String) (tags : List Opening) (label : String) :
    Option String :=
  if label = "xml" then some "http://www.w3.org/XML/1998/namespace"
  else (Dict.lookup label (scopeOf tags)).or (outside label)

/-- The namespace of names without a label. -/
def defaultIn (outside : String → Option String) (tags : List Opening) : String :=
  (uriIn? outside tags "").getD ""

variable {outside : String → Option String} {tags : List Opening}

/-- The namespace and the local name of an element, the innermost of some. -/
inductive ElementNamed (outside : String → Option String) (tags : List Opening) :
    String → String → String → Prop
  | plain {name : String} (h : ':' ∉ name.toList) :
      ElementNamed outside tags name (defaultIn outside tags) name
  | unlabelled {name localName : String} (h : Prefixed name "" localName) :
      ElementNamed outside tags name (defaultIn outside tags) localName
  | labelled {name label localName uri : String} (h : Prefixed name label localName)
      (hlabel : label ≠ "") (huri : uriIn? outside tags label = some uri) :
      ElementNamed outside tags name uri localName

/-- What an attribute is passed on as. -/
inductive AttributePassed (outside : String → Option String) (tags : List Opening) :
    String × String → Attribute → Prop
  | plain {name value : String} (h : ':' ∉ name.toList) :
      AttributePassed outside tags (name, value) ⟨"", name, name, value⟩
  | labelled {name label localName uri value : String} (h : Prefixed name label localName)
      (huri : uriIn? outside tags label = some uri) :
      AttributePassed outside tags (name, value) ⟨uri, localName, name, value⟩

/-- The attributes of a tag that declare nothing. -/
def ownAttributes (tag : Opening) : List (String × String) :=
  tag.attrs.filter fun a => (declaredName? a.1).isNone

/-- The labels that a tag uses. An element needs no namespace if nothing stands before its colon. -/
inductive Uses (tag : Opening) : String → Prop
  | ofElement {label localName : String} (h : Prefixed tag.name label localName)
      (hlabel : label ≠ "") : Uses tag label
  | ofAttribute {a : String × String} {label localName : String} (ha : a ∈ ownAttributes tag)
      (h : Prefixed a.1 label localName) : Uses tag label

/-- An element that the reader keeps for a tag inside some others. -/
structure OpensAs (outside : String → Option String) (tag : Opening) (around : List Opening)
    (element : OpenElement) : Prop where
  named : ElementNamed outside (tag :: around) tag.name element.uri element.localName
  qualifiedName : element.qualifiedName = tag.name
  declared : element.declared = (declarations tag.attrs).map (·.1)

/-- The elements that the reader keeps for some tags. -/
inductive OpenedAs (outside : String → Option String) : List Opening → List OpenElement → Prop
  | nil : OpenedAs outside [] []
  | cons {tag : Opening} {around : List Opening} {element : OpenElement}
      {opened : List OpenElement} (h : OpensAs outside tag around element)
      (hrest : OpenedAs outside around opened) :
      OpenedAs outside (tag :: around) (element :: opened)

/-- A label of an element's name that could be passed on is declared. -/
theorem ElementNamed.declared {name uri localName label rest : String}
    (h : ElementNamed outside tags name uri localName) (hname : Prefixed name label rest)
    (hlabel : label ≠ "") : uriIn? outside tags label ≠ none := by
  cases h with
  | plain hplain => exact absurd hname.mem_colon hplain
  | unlabelled hown => exact absurd (hname.unique hown) hlabel
  | labelled hown _ huri =>
    rw [hname.unique hown, huri]
    exact Option.some_ne_none _

theorem AttributePassed.declared {a : String × String} {passed : Attribute} {label rest : String}
    (h : AttributePassed outside tags a passed) (hname : Prefixed a.1 label rest) :
    uriIn? outside tags label ≠ none := by
  cases h with
  | plain hplain => exact absurd hname.mem_colon hplain
  | labelled hown huri =>
    rw [hname.unique hown, huri]
    exact Option.some_ne_none _

theorem AttributePassed.of_mem {own : List (String × String)} {attributes : Attributes}
    (h : List.Forall₂ (AttributePassed outside tags) own attributes) {a : String × String}
    (ha : a ∈ own) : ∃ passed, AttributePassed outside tags a passed := by
  induction h with
  | nil => cases ha
  | cons hfirst _ ih =>
    obtain rfl | ha := List.mem_cons.mp ha
    · exact ⟨_, hfirst⟩
    · exact ih ha

/-- A tag that could be passed on uses declared labels only. -/
theorem Uses.declared {tag : Opening} {around : List Opening} {element : OpenElement}
    {attributes : Attributes} {label : String} (h : Uses tag label)
    (helement : OpensAs outside tag around element)
    (hattributes : List.Forall₂ (AttributePassed outside (tag :: around)) (ownAttributes tag)
      attributes) : uriIn? outside (tag :: around) label ≠ none := by
  cases h with
  | ofElement hname hlabel => exact helement.named.declared hname hlabel
  | ofAttribute ha hname =>
    obtain ⟨passed, hpassed⟩ := AttributePassed.of_mem hattributes ha
    exact hpassed.declared hname

/-! ### Resolving names -/

theorem declareAll_append (front back : List (String × String))
    (spaces : String → List String) :
    declareAll (front ++ back) spaces = declareAll back (declareAll front spaces) :=
  List.foldl_append

/-- On top of what a label stands for is its last declaration. -/
theorem head?_declareAll (ds : List (String × String)) (spaces : String → List String)
    (label : String) :
    (declareAll ds spaces label).head? =
      (Dict.lookup label ds.reverse).or (spaces label).head? := by
  induction ds generalizing spaces with
  | nil => rfl
  | cons d rest ih =>
    have hfirst : (declare d.1 d.2 spaces label).head? =
        (Dict.lookup label [d]).or (spaces label).head? := by
      unfold declare
      simp only [Dict.lookup, eq_comm (a := d.1)]
      split <;> rfl
    rw [declareAll_cons, ih, hfirst, List.reverse_cons, Dict.lookup_append, Option.or_assoc]

/-- The binder holds the declarations of some tags on top of what was bound before. -/
def InForce (before : Binder κ) (tags : List Opening) (b : Binder κ) : Prop :=
  b.spaces = declareAll (scopeOf tags).reverse before.spaces

namespace InForce

variable {before b : Binder κ}

theorem bindAll (h : InForce before tags b) (tag : Opening) :
    InForce before (tag :: tags)
      ((declarations tag.attrs).foldl (fun b d => b.bindName d.1 d.2) b) := by
  have hspaces : ((declarations tag.attrs).foldl (fun b d => b.bindName d.1 d.2) b).spaces =
      declareAll (declarations tag.attrs) b.spaces :=
    congrArg Scene.spaces (b.scene_bindAll _)
  unfold InForce scopeOf
  rw [hspaces, h, ← declareAll_append, List.flatMap_cons, List.reverse_append,
    List.reverse_reverse]
  rfl

theorem unbindAll {tag : Opening} (h : InForce before (tag :: tags) b) :
    InForce before tags
      (((declarations tag.attrs).map (·.1)).reverse.foldl Binder.unbindName b) := by
  have hspaces : (((declarations tag.attrs).map (·.1)).reverse.foldl Binder.unbindName b).spaces =
      retractAll ((declarations tag.attrs).map (·.1)).reverse b.spaces :=
    congrArg Scene.spaces (b.scene_unbindAll _)
  unfold InForce at h ⊢
  rw [hspaces, h, scopeOf, List.flatMap_cons, List.reverse_append, List.reverse_reverse,
    declareAll_append, retractAll_declareAll]
  rfl

theorem namespaceOf?_eq (h : InForce before tags b) {label : String} (hlabel : label ≠ "xml") :
    b.namespaceOf? label = uriIn? before.namespaceOf? tags label := by
  unfold uriIn?
  rw [if_neg hlabel, b.namespaceOf?_eq_head?, h, head?_declareAll, List.reverse_reverse,
    before.namespaceOf?_eq_head?]

theorem resolve_eq (h : InForce before tags b) (label : String) :
    resolve b label = (uriIn? before.namespaceOf? tags label).elim (.error (.unboundName label))
      .ok := by
  unfold resolve
  by_cases hlabel : label = "xml"
  · rw [if_pos hlabel, uriIn?, if_pos hlabel]
    rfl
  · rw [if_neg hlabel, h.namespaceOf?_eq hlabel]
    cases uriIn? before.namespaceOf? tags label <;> rfl

theorem defaultIn_eq (h : InForce before tags b) :
    (b.namespaceOf? "").getD "" = defaultIn before.namespaceOf? tags :=
  congrArg (Option.getD · "") (h.namespaceOf?_eq (by decide))

/-- An attribute is passed on, unless its label is declared nowhere. -/
theorem resolveAttribute (h : InForce before tags b) (a : String × String) :
    (∃ passed, Document.resolveAttribute b a.1 a.2 = .ok passed ∧
      AttributePassed before.namespaceOf? tags a passed) ∨
    ∃ label localName, Prefixed a.1 label localName ∧
      uriIn? before.namespaceOf? tags label = none ∧
      Document.resolveAttribute b a.1 a.2 = .error (.unboundName label) := by
  unfold Document.resolveAttribute
  cases hsplit : splitName a.1 with
  | none => exact .inl ⟨_, rfl, .plain (splitName_eq_none_iff.mp hsplit)⟩
  | some parts =>
    have hname := splitName_eq_some_iff.mp hsplit
    have hresolve := h.resolve_eq parts.1
    cases huri : uriIn? before.namespaceOf? tags parts.1 with
    | none =>
      rw [huri] at hresolve
      exact .inr ⟨parts.1, parts.2, hname, huri, congrArg (Except.map _) hresolve⟩
    | some uri =>
      rw [huri] at hresolve
      exact .inl ⟨_, congrArg (Except.map _) hresolve, .labelled hname huri⟩

/-- The attributes of a tag are passed on in their order, without its declarations, unless one of
their labels is declared nowhere. -/
theorem resolveAttributes (h : InForce before tags b) (tag : Opening) :
    (∃ attributes, Document.resolveAttributes b tag.attrs = .ok attributes ∧
      List.Forall₂ (AttributePassed before.namespaceOf? tags) (ownAttributes tag) attributes) ∨
    ∃ label, Uses tag label ∧ uriIn? before.namespaceOf? tags label = none ∧
      Document.resolveAttributes b tag.attrs = .error (.unboundName label) := by
  have key : ∀ own : List (String × String),
      (∃ attributes, own.mapM (fun a => Document.resolveAttribute b a.1 a.2) = .ok attributes ∧
        List.Forall₂ (AttributePassed before.namespaceOf? tags) own attributes) ∨
      ∃ a ∈ own, ∃ label localName, Prefixed a.1 label localName ∧
        uriIn? before.namespaceOf? tags label = none ∧
        own.mapM (fun a => Document.resolveAttribute b a.1 a.2) = .error (.unboundName label) := by
    intro own
    induction own with
    | nil => exact .inl ⟨[], rfl, .nil⟩
    | cons a rest ih =>
      rw [List.mapM_cons]
      obtain ⟨first, hfirst, hpassed⟩ | ⟨label, localName, hname, hnone, hfails⟩ :=
        h.resolveAttribute a
      · rw [hfirst]
        obtain ⟨others, hothers, hall⟩ | ⟨other, hmem, label, localName, hname, hnone, hfails⟩ := ih
        · rw [hothers]
          exact .inl ⟨_, rfl, .cons hpassed hall⟩
        · rw [hfails]
          exact .inr ⟨other, List.mem_cons_of_mem _ hmem, label, localName, hname, hnone, rfl⟩
      · rw [hfails]
        exact .inr ⟨a, List.mem_cons_self, label, localName, hname, hnone, rfl⟩
  obtain hall | ⟨a, ha, label, localName, hname, hnone, hfails⟩ := key (ownAttributes tag)
  · exact .inl hall
  · exact .inr ⟨label, .ofAttribute ha hname, hnone, hfails⟩

/-- An element is named by the declarations around it and its own, unless its label is declared
nowhere. -/
theorem resolveElement {tag : Opening} (h : InForce before (tag :: tags) b) :
    (∃ element, Document.resolveElement b tag.name ((declarations tag.attrs).map (·.1)) =
        .ok element ∧ OpensAs before.namespaceOf? tag tags element) ∨
    ∃ label, Uses tag label ∧ uriIn? before.namespaceOf? (tag :: tags) label = none ∧
      Document.resolveElement b tag.name ((declarations tag.attrs).map (·.1)) =
        .error (.unboundName label) := by
  unfold Document.resolveElement
  rw [h.defaultIn_eq]
  cases hsplit : splitName tag.name with
  | none => exact .inl ⟨_, rfl, .plain (splitName_eq_none_iff.mp hsplit), rfl, rfl⟩
  | some parts =>
    obtain ⟨label, localName⟩ := parts
    have hname := splitName_eq_some_iff.mp hsplit
    rw [Option.getD_some]
    dsimp only
    by_cases hlabel : label = ""
    · subst hlabel
      exact .inl ⟨_, rfl, .unlabelled hname, rfl, rfl⟩
    · rw [if_neg (by simpa using hlabel), h.resolve_eq label]
      cases huri : uriIn? before.namespaceOf? (tag :: tags) label with
      | none => exact .inr ⟨label, .ofElement hname hlabel, huri, rfl⟩
      | some uri => exact .inl ⟨_, rfl, .labelled hname hlabel huri, rfl, rfl⟩

/-- A tag is resolved by its own declarations and those around it, unless it uses a label that is
declared nowhere. -/
theorem resolveTag (h : InForce before tags b) (tag : Opening) (here : Position) :
    let inside := (declarations tag.attrs).foldl (fun b d => b.bindName d.1 d.2) b
    (∃ element attributes, OpensAs before.namespaceOf? tag tags element ∧
      List.Forall₂ (AttributePassed before.namespaceOf? (tag :: tags)) (ownAttributes tag)
        attributes ∧
      Document.resolveTag true here tag.name tag.attrs b = .ok (element, attributes) inside) ∨
    ∃ label, Uses tag label ∧ uriIn? before.namespaceOf? (tag :: tags) label = none ∧
      Document.resolveTag true here tag.name tag.attrs b =
        .error (.error (.document here (.unboundName label))) inside := by
  intro inside
  have hinside : InForce before (tag :: tags) inside := h.bindAll tag
  unfold Document.resolveTag
  rw [if_pos rfl, Action.modify_bind_run, Action.get_bind_run]
  change (∃ element attributes, _ ∧ _ ∧ (liftFault here _ >>= fun attributes =>
    liftFault here _ >>= fun element => pure (element, attributes)) inside = _) ∨
    ∃ label, _ ∧ _ ∧ (liftFault here _ >>= fun attributes =>
      liftFault here _ >>= fun element => pure (element, attributes)) inside = _
  obtain ⟨attributes, hattributes, hpassed⟩ | ⟨label, huses, hnone, hfails⟩ :=
    hinside.resolveAttributes tag
  · rw [hattributes]
    obtain ⟨element, helement, hopens⟩ | ⟨label, huses, hnone, hfails⟩ := hinside.resolveElement
    · rw [helement]
      exact .inl ⟨element, attributes, hopens, hpassed, rfl⟩
    · rw [hfails]
      exact .inr ⟨label, huses, hnone, rfl⟩
  · rw [hfails]
    exact .inr ⟨label, huses, hnone, rfl⟩

end InForce

end Document

/-! ### What calls and events leave alone -/

/-- Rules of the user's own that end every binding of a label that they begin. -/
def Extension.Scoped (x : Extension κ) : Prop :=
  ∀ {rule cb b b'}, x.fire rule cb b = .ok () b' → b'.spaces = b.spaces

theorem Extension.scoped_none : Extension.none.Scoped := nofun

namespace Binder

theorem spaces_congr {s b : Binder κ} (h : s.bindings = b.bindings) : s.spaces = b.spaces :=
  funext fun label => congrArg (fun d : Dict String (List String) => (d.get? label).getD []) h

theorem bindings_note (b : Binder κ) (level : Level) (channel : Channel) (text : String) :
    (b.note level channel text).bindings = b.bindings := by rw [note_eq]

theorem spaces_recordCall (x : Extension κ) (cb : Callback) (ref : RuleRef κ) (b : Binder κ) :
    (b.recordCall x cb ref).spaces = b.spaces :=
  congrArg Scene.spaces (scene_recordCall x cb ref b)

theorem spaces_opened (b : Binder κ) (tag : StartTag) (found : List (RuleRef κ)) :
    (b.opened x tag found).spaces = b.spaces := by
  refine spaces_congr ?_
  unfold opened noteRules enter
  exact bindings_note ..

theorem spaces_closing (b : Binder κ) (outer : List (List (RuleRef κ))) :
    (b.closing outer).spaces = b.spaces := by
  have hend : b.endCapture.bindings = b.bindings := by
    unfold endCapture
    split
    · rw [push_eq]
    · rfl
  refine spaces_congr ?_
  unfold closing unmatch
  exact (bindings_note ..).trans hend

theorem spaces_leave (b : Binder κ) : b.leave.spaces = b.spaces := by
  refine spaces_congr ?_
  unfold leave
  split <;> rfl

theorem spaces_characters (b : Binder κ) (content : String) :
    (b.characters content).spaces = b.spaces := by
  refine spaces_congr ?_
  unfold characters
  split <;> rfl

theorem spaces_reach (b : Binder κ) (here : Position) (token : Token) :
    (b.reach here token).spaces = b.spaces := by
  refine spaces_congr ?_
  unfold reach
  split <;> rfl

end Binder

theorem RuleRef.spaces_fire (hx : x.Scoped) {ref : RuleRef κ} {cb : Callback} {b b' : Binder κ}
    (h : ref.fire x cb b = .ok () b') : b'.spaces = b.spaces := by
  obtain ⟨id, rule | rule⟩ := ref
  · have hkeeps : (rule.fire cb : Action κ RuleError Unit).Keeps Binder.bindings :=
      StandardRule.keeps_fire_aside (fun _ => rfl) (fun _ => rfl) (fun _ _ _ => rfl)
        (fun _ _ => rfl) rule cb
    exact Binder.spaces_congr (hkeeps.of_ok h)
  · exact hx h

theorem Called.spaces (hx : x.Scoped) {cb : Callback} {refs : List (RuleRef κ)} {b b' : Binder κ}
    {fs : List (Firing κ)} (h : Called x cb refs b fs b') : b'.spaces = b.spaces :=
  h.keeps (fun _ _ _ => RuleRef.spaces_fire hx) (Binder.spaces_recordCall x cb)

theorem Answers.spaces (hx : x.Scoped) {e : DocumentEvent} {b b' : Binder κ}
    {fs : List (Firing κ)} (h : Answers x e b fs b') : b'.spaces = b.spaces := by
  cases h with
  | text content => exact b.spaces_characters content
  | startInside | closeInside => rfl
  | start _ _ hcalled => exact (hcalled.spaces hx).trans (b.spaces_opened ..)
  | close _ _ hbodies hends =>
    exact (Binder.spaces_leave _).trans
      ((hends.spaces hx).trans ((hbodies.spaces hx).trans (b.spaces_closing _)))

theorem spaces_of_deliver (hx : x.Scoped) {e : DocumentEvent} {b b' : Binder κ}
    (h : deliver x e b = .ok () b') : b'.spaces = b.spaces := by
  obtain ⟨fs, hanswers⟩ := deliver_eq_ok.mp h
  exact hanswers.spaces hx

/-! ### Documents -/

namespace Document

open Markup (Opening)

variable {before b b' : Binder κ} {tags : List Opening} {here : Position}
  {opened opened' : List OpenElement}

/-- The binder and the reader agree with the tags that are open. -/
structure Inside (before : Binder κ) (tags : List Opening) (opened : List OpenElement)
    (b : Binder κ) : Prop where
  inForce : InForce before tags b
  openedAs : OpenedAs before.namespaceOf? tags opened

namespace Inside

theorem congr (h : Inside before tags opened b) (hb : b'.spaces = b.spaces) :
    Inside before tags opened b' := ⟨hb.trans h.inForce, h.openedAs⟩

/-- A start tag that gets through declares its labels, and its element is open behind it. -/
theorem start (hx : x.Scoped) (h : Inside before tags opened b) (tag : Opening)
    (hrun : Document.start x true here tag.name tag.attrs opened b = .ok opened' b') :
    Inside before (tag :: tags) opened' b' := by
  obtain ⟨⟨element, attributes⟩, m, hresolve, hrun⟩ := Action.bind_eq_ok.mp hrun
  obtain ⟨⟨⟩, m', hstart, ⟨⟩⟩ := Action.bind_eq_ok.mp hrun
  have hspaces : b'.spaces = m.spaces := spaces_of_deliver hx
    (e := .start ⟨element.uri, element.localName, element.qualifiedName, attributes⟩) hstart
  obtain ⟨element', attributes', hopens, -, hok⟩ | ⟨_, _, _, hfails⟩ :=
    h.inForce.resolveTag tag here
  · obtain ⟨⟨⟩, rfl⟩ := EStateM.Result.ok.inj (hok.symm.trans hresolve)
    exact ⟨hspaces.trans (h.inForce.bindAll tag), .cons hopens h.openedAs⟩
  · cases hfails.symm.trans hresolve

/-- An end tag that gets through takes the declarations of its element back. -/
theorem close (hx : x.Scoped) (h : Inside before tags opened b)
    (hrun : Document.close x here opened b = .ok opened' b') :
    Inside before tags.tail opened' b' := by
  obtain ⟨hforce, hopened⟩ := h
  unfold Document.close at hrun
  cases hopened with
  | nil => cases hrun
  | cons helement hrest =>
    obtain ⟨⟨⟩, m, hend, hrun⟩ := Action.bind_eq_ok.mp hrun
    cases hrun
    have hspaces : m.spaces = b.spaces := spaces_of_deliver hx (e := .close (OpenElement.endTag _))
      hend
    have hinner : InForce before (_ :: _) m := hspaces.trans hforce
    rw [helement.declared]
    exact ⟨hinner.unbindAll, hrest⟩

theorem handle (hx : x.Scoped) (h : Inside before tags opened b) {token : Token}
    (hrun : Document.handle x true here opened token b = .ok opened' b') :
    Inside before (token.openings tags) opened' b' := by
  unfold Document.handle at hrun
  cases token with
  | start name attrs => exact h.start hx ⟨name, attrs⟩ hrun
  | empty name attrs =>
    obtain ⟨mid, m, hstart, hclose⟩ := Action.bind_eq_ok.mp hrun
    exact (h.start hx ⟨name, attrs⟩ hstart).close hx hclose
  | close => exact h.close hx hrun
  | text content =>
    cases hrun
    exact h.congr (b.spaces_characters content)
  | reference name =>
    dsimp only at hrun
    cases hc : Markup.textReference? name.toList with
    | some c =>
      rw [hc] at hrun
      cases hrun
      exact h.congr (b.spaces_characters _)
    | none =>
      rw [hc] at hrun
      cases hrun
  | skipped | finish =>
    cases hrun
    exact h
  | badTag | broken => cases hrun

/-- Tokens that get through leave the declarations of the elements that are open behind them. -/
theorem handleAll (hx : x.Scoped) {cursor : Cursor} {tokens : List (Nat × Token)}
    (h : Inside before tags opened b)
    (hrun : Document.handleAll x true cursor opened tokens b = .ok opened' b') :
    Inside before (tokens.foldl (fun around entry => entry.2.openings around) tags) opened' b' := by
  induction tokens generalizing cursor opened tags b with
  | nil =>
    cases hrun
    exact h
  | cons entry rest ih =>
    obtain ⟨offset, token⟩ := entry
    rw [handleAll_cons] at hrun
    obtain ⟨mid, m, htoken, hrest⟩ := Action.bind_eq_ok.mp hrun
    exact ih ((h.congr (b.spaces_reach ..)).handle hx htoken) hrest

end Inside

theorem inside_atStart (b : Binder κ) (text : List Char) : Inside b [] [] (b.atStart text) := by
  have hbindings : (b.atStart text).bindings = b.bindings := Binder.bindings_note ..
  exact ⟨Binder.spaces_congr hbindings, .nil⟩

/-- When the labels of a tag are declared, its start is passed on with the names that they stand
for. -/
theorem Inside.start_eq (h : Inside before tags opened b) {tag : Opening}
    (hdeclared : ∀ label, Uses tag label →
      uriIn? before.namespaceOf? (tag :: tags) label ≠ none) :
    ∃ element attributes, OpensAs before.namespaceOf? tag tags element ∧
      List.Forall₂ (AttributePassed before.namespaceOf? (tag :: tags)) (ownAttributes tag)
        attributes ∧
      Document.start x true here tag.name tag.attrs opened b =
        (deliver x (.start ⟨element.uri, element.localName, element.qualifiedName, attributes⟩) >>=
          fun _ => pure (element :: opened))
          ((declarations tag.attrs).foldl (fun b d => b.bindName d.1 d.2) b) := by
  obtain ⟨element, attributes, hopens, hpassed, hok⟩ | ⟨label, huses, hnone, -⟩ :=
    h.inForce.resolveTag tag here
  · exact ⟨element, attributes, hopens, hpassed, Action.bind_run_of_ok hok _⟩
  · exact absurd hnone (hdeclared label huses)

/-- When a label of a tag is declared nowhere, the tag is refused. -/
theorem Inside.start_eq_error (h : Inside before tags opened b) (here : Position) {tag : Opening}
    (hundeclared : ∃ label, Uses tag label ∧
      uriIn? before.namespaceOf? (tag :: tags) label = none) :
    ∃ label, Uses tag label ∧ uriIn? before.namespaceOf? (tag :: tags) label = none ∧
      Document.start x true here tag.name tag.attrs opened b =
        .error (.error (.document here (.unboundName label)))
          ((declarations tag.attrs).foldl (fun b d => b.bindName d.1 d.2) b) := by
  obtain ⟨element, attributes, hopens, hpassed, -⟩ | ⟨label, huses, hnone, hfails⟩ :=
    h.inForce.resolveTag tag here
  · obtain ⟨label, huses, hnone⟩ := hundeclared
    exact absurd hnone (huses.declared hopens hpassed)
  · exact ⟨label, huses, hnone, Action.bind_run_of_error hfails _⟩

/-- A tag that is refused ends the run, and its rules are not called. -/
theorem run_eq_unbound {text : List Char} {b m : Binder κ} (haware : b.options.namespaceAware = true)
    {front back : List (Nat × Token)} {offset : Nat} {token : Token} {tag : Opening}
    (htag : token.opening? = some tag) (hscan : Markup.scan text = front ++ (offset, token) :: back)
    (hfront : handleAll x true { rest := text } [] front (b.atStart text) = .ok opened m)
    {label : String} {s : Binder κ} (hfails : Document.start x true (Position.ofOffset text offset)
      tag.name tag.attrs opened (m.reach (Position.ofOffset text offset) token) =
        .error (.error (.document (Position.ofOffset text offset) (.unboundName label))) s) :
    run x text b = .error (.error (.document (Position.ofOffset text offset) (.unboundName label)))
      s := by
  have hrun := run_from_token (x := x) hscan (by rw [haware]; exact hfront)
  rw [haware] at hrun
  rw [hrun]
  refine Action.bind_run_of_error ?_ _
  unfold handle
  cases token with
  | start name attrs =>
    cases htag
    exact hfails
  | empty name attrs =>
    cases htag
    exact Action.bind_run_of_error hfails _
  | _ => cases htag

end Document

/-- The end of a document leaves the labels alone. -/
theorem spaces_of_endDocument (hx : x.Scoped) {b b' : Binder κ}
    (h : endDocument x b = .ok () b') : b'.spaces = b.spaces := by
  obtain ⟨fs, s, hcalled, hend⟩ | ⟨_, _, _, _, _, _, _, _, _, _, hend⟩ :=
    finishes_endDocument (x := x) b
  · obtain ⟨-, rfl⟩ := EStateM.Result.ok.inj (hend.symm.trans h)
    have hleftover : b.noteLeftover.bindings = b.bindings := by
      unfold Binder.noteLeftover
      split
      · exact Binder.bindings_note ..
      · rfl
    have hclosed : s.closeDocument.bindings = s.bindings := Binder.bindings_note ..
    exact (Binder.spaces_congr hclosed).trans
      ((hcalled.spaces hx).trans (Binder.spaces_congr hleftover))
  · cases hend.symm.trans h

open Document in
/-- What is said of a text whose namespaces are resolved, read up to any of its tokens. What was
bound before counts as declared outside. -/
structure ScopesNames (x : Extension κ) (b : Binder κ) (text : String) : Prop where
  /-- The open elements are named by their own tags and those around them. -/
  openedAs : ∀ front offset token back, Markup.scan text.toList = front ++ (offset, token) :: back →
    ∀ opened m, handleAll x true { rest := text.toList } [] front (b.atStart text.toList) =
      .ok opened m → OpenedAs b.namespaceOf? (Markup.openings front) opened
  /-- A tag whose labels are all declared is passed on with the names that these stand for. -/
  passed : ∀ front offset token back, Markup.scan text.toList = front ++ (offset, token) :: back →
    ∀ opened m, handleAll x true { rest := text.toList } [] front (b.atStart text.toList) =
      .ok opened m → ∀ tag, token.opening? = some tag →
    let around := Markup.openings front
    let here := Position.ofOffset text.toList offset
    (∀ label, Uses tag label → uriIn? b.namespaceOf? (tag :: around) label ≠ none) →
    ∃ element attributes, OpensAs b.namespaceOf? tag around element ∧
      List.Forall₂ (AttributePassed b.namespaceOf? (tag :: around)) (ownAttributes tag)
        attributes ∧
      start x true here tag.name tag.attrs opened (m.reach here token) =
        (deliver x (.start ⟨element.uri, element.localName, element.qualifiedName, attributes⟩) >>=
          fun _ => pure (element :: opened))
          ((declarations tag.attrs).foldl (fun b d => b.bindName d.1 d.2) (m.reach here token))
  /-- A tag with a label that is declared nowhere ends the text, and no rule is called for it. -/
  refused : ∀ front offset token back, Markup.scan text.toList = front ++ (offset, token) :: back →
    ∀ opened m, handleAll x true { rest := text.toList } [] front (b.atStart text.toList) =
      .ok opened m → ∀ tag, token.opening? = some tag →
    let around := Markup.openings front
    (∃ label, Uses tag label ∧ uriIn? b.namespaceOf? (tag :: around) label = none) →
    ∃ label b', Uses tag label ∧ uriIn? b.namespaceOf? (tag :: around) label = none ∧
      parse x text b =
        .error (.error (.document (Position.ofOffset text.toList offset) (.unboundName label))) b' ∧
      b'.calls = m.calls
  /-- Behind a text that gets through every label stands for what it stood for before. -/
  restored : ∀ root b', parse x text b = .ok root b' →
    ∀ label, b'.namespaceOf? label = b.namespaceOf? label

open Document in
/-- **Names mean what the declarations around them say.** The reader declares the labels of a tag
before it resolves the names in it, and takes them back behind the end tag of the element. So of any
text whose namespaces are resolved, given to rules that leave the labels alone, every name is resolved
by the innermost declaration that is open. -/
theorem scoping_law (hx : x.Scoped) {b : Binder κ} (haware : b.options.namespaceAware = true)
    (text : String) : ScopesNames x b text := by
  have hinside {front : List (Nat × Token)} {opened : List OpenElement} {m : Binder κ}
      (hfront : handleAll x true { rest := text.toList } [] front (b.atStart text.toList) =
        .ok opened m) : Document.Inside b (Markup.openings front) opened m :=
    (inside_atStart b text.toList).handleAll hx hfront
  constructor
  case openedAs => exact fun _ _ _ _ _ _ _ hfront => (hinside hfront).openedAs
  case passed =>
    intro front offset token back hscan opened m hfront tag htag around here hdeclared
    exact ((hinside hfront).congr (m.spaces_reach here token)).start_eq hdeclared
  case refused =>
    intro front offset token back hscan opened m hfront tag htag around hundeclared
    obtain ⟨label, huses, hnone, hfails⟩ :=
      ((hinside hfront).congr (m.spaces_reach (Position.ofOffset text.toList offset)
        token)).start_eq_error (Position.ofOffset text.toList offset) hundeclared
    have hreader := congrArg Binder.calls ((Binder.unread_bindAll (declarations tag.attrs) _).trans
      (m.unread_reach (Position.ofOffset text.toList offset) token))
    exact ⟨label, _, huses, hnone,
      parse_of_run_error (run_eq_unbound haware htag hscan hfront hfails),
      (Binder.calls_abandon _).trans hreader⟩
  case restored =>
    intro root b' hparse label
    obtain ⟨m, hread⟩ := handleAll_of_parse hparse
    have hend := run_eq_endDocument hread
    rw [haware] at hread
    obtain ⟨hforce, hopened⟩ := (inside_atStart b text.toList).handleAll hx hread
    generalize (Markup.scan text.toList).foldl _ _ = tags at hforce hopened
    cases hopened
    have hparsed : endDocument x m = .ok () b' := hend.symm.trans (run_of_parse_ok hparse)
    have hspaces : b'.spaces = b.spaces := (spaces_of_endDocument hx hparsed).trans hforce
    rw [b'.namespaceOf?_eq_head?, b.namespaceOf?_eq_head?, hspaces]

/-- A label that only an element in front declares is declared nowhere. -/
theorem scoping_law_of_an_undeclared_sibling :
    let b : Binder Empty := { options := { namespaceAware := true } }
    let text := "<a><p:b xmlns:p='u'/><p:c/></a>"
    Extension.none.Scoped ∧ b.options.namespaceAware = true ∧ ScopesNames .none b text ∧
      ∃ here label b', parse .none text b = .error (.error (.document here (.unboundName label)))
        b' := by
  intro b text
  have hlaw : ScopesNames .none b text := scoping_law Extension.scoped_none rfl text
  refine ⟨Extension.scoped_none, rfl, hlaw, ?_⟩
  let front := [(0, Token.start "a" []), (3, .empty "p:b" [("xmlns:p", "u")])]
  have hscan : Markup.scan text.toList =
      front ++ (21, Token.empty "p:c" []) :: [(27, .close), (31, .finish)] := by decide +kernel
  have hfront : Document.handleAll .none true { rest := text.toList } [] front
      (b.atStart text.toList) = .ok [⟨"", "a", "a", []⟩] _ :=
    Action.eq_ok_of_answer? (by decide +kernel)
  have hundeclared : Document.Uses ⟨"p:c", []⟩ "p" :=
    .ofElement (show Document.Prefixed "p:c" "p" "c" from ⟨rfl, by decide⟩) (by decide)
  obtain ⟨label, b', -, -, hparse, -⟩ := hlaw.refused _ _ _ _ hscan _ _ hfront ⟨"p:c", []⟩ rfl
    ⟨"p", hundeclared, rfl⟩
  exact ⟨_, label, b', hparse⟩

/-- A label that was bound before the text is declared without any declaration, and one that a rule
binds outlives the text. -/
theorem labels_reach_across_a_text :
    let x : Extension Unit := ⟨fun _ => "binds", fun _ cb => match cb with
      | .start .. => modify (·.bindName "p" "v")
      | _ => pure ()⟩
    let table : Table (RuleRef Unit) := ({} : Table _).register ['a'] ⟨0, .custom ()⟩
    let b : Binder Unit := { matcher := .plain table, options := { namespaceAware := true } }
    let s := b.bindName "" "u"
    let s' := (parse x "<a/>").after s
    ((parse x "<a/>").answer? s).isSome ∧
      (∀ d ∈ Document.scopeOf [⟨"a", []⟩], d.1 ≠ "") ∧
      s'.calls.reverse.map (·.callback) =
        [.start "u" "a" [], .body "u" "a" "", .close "u" "a", .finish] ∧
      s.namespaceOf? "p" = none ∧ s'.namespaceOf? "p" = some "v" := by
  decide +kernel

end XmlBinding
