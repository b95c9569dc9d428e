import Mathlib.Data.List.TakeWhile
import XmlBinding.Proofs.Mapping

/-!
# What the events of a document leave behind

A reader hands over the events of a document one by one. Between the start tag and the end tag of an
element nothing changes below its object, so what the tags do for one element can be said once, and
the image of a document follows by induction on its tree.
-/
namespace XmlBinding.Generic

open Document

variable {κ : Type} {x : Extension κ} {s s' : Scene κ}

/-! ### Events one by one -/

/-- What one event does. -/
def feed (x : Extension κ) (aware : Bool) (here : Position) (opened : List OpenElement) :
    ReaderEvent → Action κ BindError (List OpenElement)
  | .start name attrs => start x aware here name attrs opened
  | .text content => do
    modify (·.characters content)
    return opened
  | .close => close x here opened

/-- All events get through, wherever they stand in the text, and `good` holds behind the last. -/
def Feeds (x : Extension κ) (aware : Bool) : List ReaderEvent → List OpenElement → Scene κ →
    (List OpenElement → Scene κ → Prop) → Prop
  | [], opened, s, good => good opened s
  | e :: rest, opened, s, good => ∀ here, (feed x aware here opened e).Reaches s fun opened s =>
    Feeds x aware rest opened s good

variable {aware : Bool} {opened : List OpenElement}

theorem Feeds.mono {good good' : List OpenElement → Scene κ → Prop}
    (himp : ∀ opened s, good opened s → good' opened s) {es : List ReaderEvent}
    (h : Feeds x aware es opened s good) : Feeds x aware es opened s good' := by
  induction es generalizing opened s with
  | nil => exact himp _ _ h
  | cons e rest ih => exact fun here => (h here).mono fun _ _ => ih

theorem feeds_append {good : List OpenElement → Scene κ → Prop} {es fs : List ReaderEvent} :
    Feeds x aware (es ++ fs) opened s good ↔
      Feeds x aware es opened s fun opened s => Feeds x aware fs opened s good := by
  induction es generalizing opened s with
  | nil => exact Iff.rfl
  | cons e rest ih =>
    refine forall_congr' fun here => ?_
    exact ⟨fun h => h.mono fun _ _ => ih.mp, fun h => h.mono fun _ _ => ih.mpr⟩

/-- A token that is well formed does what its events do. -/
theorem reaches_handle {good : List OpenElement → Scene κ → Prop} {token : Markup.Token}
    {es : List ReaderEvent} (htoken : eventsOf? token = some es)
    (h : Feeds x aware es opened s good) (here : Position) :
    (handle x aware here opened token).Reaches s good := by
  cases token with
  | start name attrs =>
    obtain rfl := Option.some.inj htoken
    exact h here
  | empty name attrs =>
    obtain rfl := Option.some.inj htoken
    exact (h here).bind fun _ _ hclose => hclose here
  | close =>
    obtain rfl := Option.some.inj htoken
    exact h here
  | text content =>
    obtain rfl := Option.some.inj htoken
    exact h here
  | reference name =>
    obtain ⟨c, hc, rfl⟩ := Option.map_eq_some_iff.mp htoken
    have hhandle : handle x aware here opened (.reference name) =
        feed x aware here opened (.text (String.singleton c)) := by
      unfold handle
      dsimp only
      rw [hc]
      rfl
    rw [hhandle]
    exact h here
  | skipped =>
    obtain rfl := Option.some.inj htoken
    exact (Action.leads_pure opened s).reaches h
  | finish =>
    obtain rfl := Option.some.inj htoken
    exact (Action.leads_pure opened s).reaches h
  | badTag => cases htoken
  | broken => cases htoken

/-- Tokens that are well formed do what their events do. -/
theorem reaches_handleAll {good : List OpenElement → Scene κ → Prop}
    (tokens : List (Nat × Markup.Token)) {es : List ReaderEvent}
    (htokens : delivered? tokens = some es) (h : Feeds x aware es opened s good) (cursor : Cursor) :
    (handleAll x aware cursor opened tokens).Reaches s good := by
  induction tokens generalizing es opened s cursor with
  | nil =>
    obtain rfl := Option.some.inj htokens
    exact (Action.leads_pure opened s).reaches h
  | cons first rest ih =>
    obtain ⟨offset, token⟩ := first
    obtain ⟨own, hown, hrest⟩ := Option.bind_eq_some_iff.mp htokens
    obtain ⟨others, hothers, rfl⟩ := Option.map_eq_some_iff.mp hrest
    have hposition : ∀ here, (modify ({ · with position := some here }) :
        Action κ BindError PUnit).Reaches s fun _ m => m = s :=
      fun here b hb => ⟨⟨⟩, _, rfl, hb⟩
    have hwell : token ≠ .broken := by
      rintro rfl
      cases hown
    unfold handleAll
    dsimp only
    rw [if_neg hwell]
    refine (hposition _).bind fun _ m hm => ?_
    subst hm
    refine (reaches_handle hown (feeds_append.mp h) _).bind fun opened' s' h' => ?_
    exact ih hothers h' _

/-! ### A start tag -/

/-- The path of an element inside another one. -/
def pathInside (path name : String) : String := if path.isEmpty then name else path ++ "/" ++ name

theorem lastSegment_pathInside (path : String) {name : String} (h : '/' ∉ name.toList) :
    StandardRule.lastSegment (pathInside path name) = name := by
  have hname : name.toList.reverse.takeWhile (· ≠ '/') = name.toList.reverse := by
    rw [List.takeWhile_eq_self_iff]
    intro c hc
    have hne : c ≠ '/' := fun heq => h (heq ▸ List.mem_reverse.mp hc)
    simpa using hne
  have hlast : (pathInside path name).toList.reverse.takeWhile (· ≠ '/') =
      name.toList.reverse := by
    unfold pathInside
    split
    · exact hname
    · have hsplit : (path ++ "/" ++ name).toList.reverse =
          name.toList.reverse ++ '/' :: path.toList.reverse := by
        simp
      rw [hsplit, List.takeWhile_append, hname, if_pos rfl]
      exact List.append_nil _
  rw [StandardRule.lastSegment, hlast, List.reverse_reverse, String.ofList_toList]

theorem scene_opened (b : Binder κ) (tag : StartTag) (found : List (RuleRef κ)) :
    (b.opened x tag found).scene =
      { b.scene with
        path := pathInside b.path tag.name, outerPaths := b.path :: b.outerPaths
        matched := found :: b.matched, text := "", outerTexts := b.text :: b.outerTexts } := by
  have henter : (b.enter tag.name).scene =
      { b.scene with
        path := pathInside b.path tag.name, outerPaths := b.path :: b.outerPaths
        text := "", outerTexts := b.text :: b.outerTexts } := Binder.scene_note ..
  change { (b.enter tag.name).scene with matched := found :: (b.enter tag.name).scene.matched } = _
  rw [henter]
  rfl

/-- The rules of the mapping apply everywhere, no node is captured and nothing is expanded. -/
structure Ready (trim : Bool) (s : Scene κ) : Prop where
  found : ∀ uri path name attrs, s.matcher.rulesFor? uri path name attrs = some (refs trim)
  capture : s.capture = none
  substitutor : s.substitutor = none

theorem leads_startElement {trim : Bool} (hready : Ready trim s) (tag : StartTag) :
    ∃ h, (deliver x (.start tag)).Leads s ()
        { s with
          stack := .object s.heap.next :: s.stack, path := pathInside s.path tag.name
          outerPaths := s.path :: s.outerPaths, matched := refs trim :: s.matched
          text := "", outerTexts := s.text :: s.outerTexts, heap := h } ∧
      s.heap.Changes h s.heap.next (.dynamic (DynamicBean.withAttributes
        { typeName := StandardRule.lastSegment (pathInside s.path tag.name) } tag.attrs)) := by
  obtain ⟨h, hstarts, hchanges⟩ := leads_starts (x := x) trim tag.uri tag.name tag.attrs
    { s with
      path := pathInside s.path tag.name, outerPaths := s.path :: s.outerPaths
      matched := refs trim :: s.matched, text := "", outerTexts := s.text :: s.outerTexts }
  refine ⟨h, fun b hb => ?_, hchanges⟩
  subst hb
  have hfound : b.rulesAt? tag = some (refs trim) := hready.found ..
  have hattrs : b.expandAttributes tag.attrs = tag.attrs := by
    have hnone : b.substitutor = none := hready.substitutor
    unfold Binder.expandAttributes
    rw [hnone]
  unfold Action.Shows
  rw [start_eq_callRules tag hready.capture hfound, hattrs]
  exact hstarts _ (scene_opened b tag _)

/-- The object of an element as its start tag leaves it. -/
def newborn (o : Options) (name : String) (attrs : List (String × String)) : DynamicBean where
  typeName := nameIn o.namespaceAware name
  properties := Dict.insertAll ∅
    ((assignments o.namespaceAware attrs).map fun a => (a.1, Value.text a.2))

theorem withAttributes_newborn {o : Options} {name : String} {attrs : List (String × String)}
    {attributes : Attributes}
    (h : attributes.map (fun a => (a.name, a.value)) = assignments o.namespaceAware attrs) :
    DynamicBean.withAttributes { typeName := nameIn o.namespaceAware name } attributes =
      newborn o name attrs := by
  unfold DynamicBean.withAttributes newborn
  rw [← h, List.map_map]
  rfl

/-- The scene behind a start tag, inside the new element. -/
structure Entered (o : Options) (name : String) (attrs : List (String × String)) (s : Scene κ)
    (element : OpenElement) (s' : Scene κ) : Prop where
  scene : s' = { s with
    stack := .object s.heap.next :: s.stack, path := s'.path, outerPaths := s.path :: s.outerPaths
    matched := refs o.trimText :: s.matched, text := "", outerTexts := s.text :: s.outerTexts
    spaces := declareAll (declarationsIn o.namespaceAware attrs) s.spaces, heap := s'.heap }
  changes : s.heap.Changes s'.heap s.heap.next (.dynamic (newborn o name attrs))
  declared : element.declared = (declarationsIn o.namespaceAware attrs).map (·.1)

theorem reaches_start {o : Options} {name : String} {attrs : List (String × String)}
    {scope : List String} (hready : Ready o.trimText s)
    (hname : nameIn o.namespaceAware name ≠ "")
    (hslash : '/' ∉ (nameIn o.namespaceAware name).toList)
    (hcovers : o.namespaceAware = true → Covers s.spaces scope)
    (hbound : o.namespaceAware = true → TagBound (declaredIn attrs ++ scope) name attrs)
    (here : Position) :
    (start x o.namespaceAware here name attrs opened).Reaches s fun opened' s' =>
      ∃ element, opened' = element :: opened ∧ Entered o name attrs s element s' := by
  refine (reaches_resolveTag here hname hcovers hbound).bind fun r m hm => ?_
  obtain ⟨element, attributes⟩ := r
  obtain ⟨hresolved, rfl⟩ := hm
  have hinside : Ready o.trimText
      { s with spaces := declareAll (declarationsIn o.namespaceAware attrs) s.spaces } :=
    ⟨hready.found, hready.capture, hready.substitutor⟩
  obtain ⟨h, hstart, hchanges⟩ := leads_startElement (x := x) hinside
    ⟨element.uri, element.localName, element.qualifiedName, attributes⟩
  have hown : StartTag.name ⟨element.uri, element.localName, element.qualifiedName, attributes⟩ =
      nameIn o.namespaceAware name := hresolved.name_eq
  rw [hown, lastSegment_pathInside _ hslash, withAttributes_newborn hresolved.attributes_eq]
    at hchanges
  exact (hstart.bind (Action.leads_pure (element :: opened) _)).reaches
    ⟨element, rfl, rfl, hchanges, hresolved.declared⟩

/-! ### An end tag -/

theorem scene_closing {b : Binder κ} (hc : b.capture = none) (outer : List (List (RuleRef κ))) :
    (b.closing outer).scene = { b.scene with matched := outer, text := "" } := by
  have hunmatch : (b.unmatch outer).scene = { b.scene with matched := outer } :=
    Binder.scene_note ..
  unfold Binder.closing
  rw [Binder.endCapture_of_none hc]
  change { (b.unmatch outer).scene with text := "" } = _
  rw [hunmatch]

theorem leads_resumeText {text : String} {outerTexts : List String}
    (h : s.outerTexts = text :: outerTexts) :
    (modify (·.resumeText) : Action κ BindError PUnit).Leads s ⟨⟩
      { s with text := text, outerTexts := outerTexts } :=
  Action.leads_modify fun b hb => by
    subst hb
    have htexts : b.outerTexts = text :: outerTexts := h
    unfold Binder.resumeText
    rw [htexts]
    rfl

theorem leads_leave {path : String} {outerPaths : List String}
    (h : s.outerPaths = path :: outerPaths) :
    (modify (·.leave) : Action κ BindError PUnit).Leads s ⟨⟩
      { s with path := path, outerPaths := outerPaths } :=
  Action.leads_modify fun b hb => by
    subst hb
    have hpaths : b.outerPaths = path :: outerPaths := h
    unfold Binder.leave
    rw [hpaths]
    rfl

/-- What an end tag does, with the element's object on top of the stack and its parent below. -/
theorem leads_endElement {trim : Bool} {id parent : ObjectId} {bean parentBean : DynamicBean}
    {below : Stack Value} {outer : List (List (RuleRef κ))} {text path : String}
    {outerTexts outerPaths : List String} (hready : Ready trim s)
    (hstack : s.stack = .object id :: .object parent :: below)
    (hb : s.heap.bean? id = some (.dynamic bean)) (hd : bean.declared = none)
    (hparent : s.heap.bean? parent = some (.dynamic parentBean)) (hne : parent ≠ id)
    (hmatched : s.matched = refs trim :: outer) (htexts : s.outerTexts = text :: outerTexts)
    (hpaths : s.outerPaths = path :: outerPaths) (tag : EndTag) :
    ∃ m h, (deliver x (.close tag)).Leads s ()
        { s with
          stack := .object parent :: below, path := path, outerPaths := outerPaths
          matched := outer, text := text, outerTexts := outerTexts, heap := h } ∧
      s.heap.Changes m id (.dynamic (bean.withText trim s.text)) ∧
      m.Changes h parent (.dynamic (parentBean.withChild id)) := by
  have hlow := Heap.lt_size hparent
  obtain ⟨m, hbodies, hm⟩ := leads_bodies (x := x)
    (s := { s with matched := outer, text := "" }) hstack hb hd trim tag.uri tag.name s.text
  have hparentm : m.bean? parent = some (.dynamic parentBean) :=
    (hm.others parent hlow hne).trans hparent
  obtain ⟨h, hcloses, hh⟩ := leads_closes (x := x)
    (s := { s with
      matched := outer, text := text, outerTexts := outerTexts, heap := m })
    hstack hparentm trim tag.uri tag.name
  refine ⟨m, h, fun b hb' => ?_, hm, hh⟩
  subst hb'
  have hcapture : b.capture = none := hready.capture
  have htext : b.expandText b.text = b.text := by
    have hnone : b.substitutor = none := hready.substitutor
    unfold Binder.expandText
    rw [hnone]
  have hopen : b.capture.bind (·.close?) = none := by
    rw [hcapture]
    rfl
  unfold Action.Shows
  rw [close_eq_closeRules tag hopen hmatched, htext]
  have hresume := leads_resumeText (s := { b.scene with matched := outer, text := "", heap := m })
    htexts
  have hleave := leads_leave
    (s := { b.scene with
      stack := .object parent :: below, matched := outer, text := text, outerTexts := outerTexts
      heap := h })
    hpaths
  exact (hbodies.bind (hresume.bind (hcloses.bind hleave))) _ (scene_closing hcapture outer)

/-- The declarations of an element end with it. -/
theorem leads_close {a : Unit} {element : OpenElement}
    (h : (deliver x (.close ⟨element.uri, element.localName, element.qualifiedName⟩)).Leads s a s')
    (here : Position) : (close x here (element :: opened)).Leads s opened
      { s' with spaces := retractAll element.declared.reverse s'.spaces } := by
  refine Action.Leads.bind h (Action.Leads.bind (Action.leads_modify fun b hb => ?_)
    (Action.leads_pure opened _))
  subst hb
  exact b.scene_unbindAll element.declared.reverse

/-! ### Elements and content -/

/-- What content leaves behind: its text, and its images as further children of the object on top of
the stack. -/
structure Grown (o : Options) (c : Fragment) (parent : ObjectId) (bean : DynamicBean)
    (s s' : Scene κ) (children : List Value) : Prop where
  scene : s' = { s with text := s.text ++ c.ownText, heap := s'.heap }
  changes : s.heap.Changes s'.heap parent
    (.dynamic { bean with children := bean.children ++ children })
  images : Images (s'.heap.since s.heap.size) o c children

/-- The object of an element holds what the reference says, once its text is there. -/
theorem mapped_of_shown {look : ObjectId → Option Bean} {o : Options} {name text : String}
    {attrs : List (String × String)} {id : ObjectId} {children : List Value}
    (h : look id = some (.dynamic
      ({ newborn o name attrs with children := children }.withText o.trimText text))) :
    Mapped look o name attrs text id children := by
  have hlookup : ∀ (pairs : List (String × String)) (property : String),
      Dict.lookup property (pairs.map fun a => (a.1, Value.text a.2)) =
        (Dict.lookup property pairs).map .text := by
    intro pairs property
    induction pairs with
    | nil => rfl
    | cons a rest ih =>
      rw [List.map_cons, Dict.lookup, Dict.lookup, ih]
      split <;> rfl
  have hnewborn : ∀ property, (newborn o name attrs).properties.get? property =
      (Dict.lookup property (assignments o.namespaceAware attrs).reverse).map .text := by
    intro property
    have hempty : (∅ : Dict String Value).get? property = none := rfl
    rw [newborn, Dict.get?_insertAll, hempty, Option.or_none, ← List.map_reverse, hlookup]
  refine ⟨_, h, ?_, fun property => ?_, ?_⟩
  · unfold DynamicBean.withText
    split <;> rfl
  · unfold DynamicBean.withText propertyOf?
    cases hblank : Text.isAllBlank text with
    | true =>
      rw [if_pos rfl, if_neg (by simp)]
      exact hnewborn property
    | false =>
      rw [if_neg (by simp)]
      change ((newborn o name attrs).properties.insert "text" _).get? property = _
      rw [Dict.get?_insert, hnewborn]
      by_cases htext : property = "text"
      · have hand : property = "text" ∧ false = false := ⟨htext, rfl⟩
        rw [if_pos htext, if_pos hand]
      · have hnot : ¬(property = "text" ∧ false = false) := fun hand => htext hand.1
        rw [if_neg htext, if_neg hnot]
  · unfold DynamicBean.withText
    split <;> rfl

variable {o : Options} {name : String} {attrs : List (String × String)} {inner rest : Fragment}
  {element : OpenElement} {s₁ s₂ s₃ : Scene κ} {parent : ObjectId} {bean : DynamicBean} {m : Heap}
  {children others : List Value}

/-- An element and what stands behind it, from its parts. -/
theorem Grown.of_element (hentered : Entered o name attrs s element s₁)
    (hinner : Grown o inner s.heap.next (newborn o name attrs) s₁ s₂ children)
    (htext : s₂.heap.Changes m s.heap.next (.dynamic
      ({ newborn o name attrs with children := children }.withText o.trimText inner.ownText)))
    (hlink : m.Changes s₃.heap parent (.dynamic (bean.withChild s.heap.next)))
    (hback : s₃ = { s with heap := s₃.heap })
    (hrest : Grown o rest parent (bean.withChild s.heap.next) s₃ s' others)
    (hparent : parent.index < s.heap.size) :
    Grown o (.element name attrs inner rest) parent bean s s' (.object s.heap.next :: others) := by
  have hgraft := Heap.grafted hentered.changes hinner.changes htext hlink hrest.changes hparent
  refine ⟨?_, ?_, ?_⟩
  · rw [hrest.scene, hback]
    rfl
  · have hchanges := hgraft.changes
    change s.heap.Changes s'.heap parent (.dynamic { bean with
      children := (bean.children ++ [.object s.heap.next]) ++ others }) at hchanges
    rw [List.append_assoc] at hchanges
    exact hchanges
  · exact ⟨s.heap.next, children, others, rfl, mapped_of_shown hgraft.own,
      hinner.images.mono hgraft.inside, hrest.images.mono hgraft.behind⟩

theorem leads_characters {s : Scene κ} (h : s.capture = none) (text : String) :
    (modify (·.characters text) : Action κ BindError PUnit).Leads s ⟨⟩
      { s with text := s.text ++ text } :=
  Action.leads_modify fun b hb => by
    subst hb
    have hnone : b.capture = none := h
    unfold Binder.characters
    split
    · next hsome => cases hnone.symm.trans hsome
    · rfl

/-- Inside the new element the rules of the mapping still apply. -/
theorem Entered.ready (h : Entered o name attrs s element s₁) (hready : Ready o.trimText s) :
    Ready o.trimText s₁ := by
  rw [h.scene]
  exact ⟨hready.found, hready.capture, hready.substitutor⟩

theorem Grown.ready {c : Fragment} (h : Grown o c parent bean s s' children)
    (hready : Ready o.trimText s) : Ready o.trimText s' := by
  rw [h.scene]
  exact ⟨hready.found, hready.capture, hready.substitutor⟩

/-- The end tag of an element leads back to where its start tag was, but for the objects. -/
theorem leads_back {below : Stack Value} (opened : List OpenElement) (hready : Ready o.trimText s)
    (hstack : s.stack = .object parent :: below)
    (hparent : s.heap.bean? parent = some (.dynamic bean))
    (hentered : Entered o name attrs s element s₁)
    (hinner : Grown o inner s.heap.next (newborn o name attrs) s₁ s₂ children) (here : Position) :
    ∃ m h, (close x here (element :: opened)).Leads s₂ opened { s with heap := h } ∧
      s₂.heap.Changes m s.heap.next (.dynamic
        ({ newborn o name attrs with children := children }.withText o.trimText inner.ownText)) ∧
      m.Changes h parent (.dynamic (bean.withChild s.heap.next)) := by
  have hlow := Heap.lt_size hparent
  have hne : parent ≠ s.heap.next := by
    rintro rfl
    exact Nat.lt_irrefl _ hlow
  have hscene₁ := hentered.scene
  have hscene₂ := hinner.scene
  have hsize₁ := hentered.changes.grows
  have hparent₂ : s₂.heap.bean? parent = some (.dynamic bean) := by
    rw [hinner.changes.others parent (by omega) hne, hentered.changes.others parent hlow hne]
    exact hparent
  have hstack₂ : s₂.stack = .object s.heap.next :: .object parent :: below := by
    rw [hscene₂, hscene₁, ← hstack]
  have htext : s₂.text = inner.ownText := by
    rw [hscene₂, hscene₁]
    exact String.empty_append
  have hmatched : s₂.matched = refs o.trimText :: s.matched := by rw [hscene₂, hscene₁]
  have htexts : s₂.outerTexts = s.text :: s.outerTexts := by rw [hscene₂, hscene₁]
  have hpaths : s₂.outerPaths = s.path :: s.outerPaths := by rw [hscene₂, hscene₁]
  obtain ⟨m, h, hend, hm, hh⟩ := leads_endElement (x := x) (hinner.ready (hentered.ready hready))
    hstack₂ hinner.changes.shown rfl hparent₂ hne hmatched htexts hpaths
    ⟨element.uri, element.localName, element.qualifiedName⟩
  rw [htext] at hm
  refine ⟨m, h, ?_, hm, hh⟩
  have hspaces : retractAll element.declared.reverse s₂.spaces = s.spaces := by
    rw [hscene₂, hscene₁, hentered.declared]
    exact retractAll_declareAll _ _
  have hscene : { s₂ with
      stack := .object parent :: below, path := s.path, outerPaths := s.outerPaths
      matched := s.matched, text := s.text, outerTexts := s.outerTexts, heap := h
      spaces := retractAll element.declared.reverse s₂.spaces } = { s with heap := h } := by
    rw [hspaces, hscene₂, hscene₁, ← hstack]
  rw [← hscene]
  exact leads_close hend here

/-- The events of content leave its images behind, and nothing else. -/
theorem feeds_content {c : Fragment} {scope : List String} {below : Stack Value}
    (hready : Ready o.trimText s) (hstack : s.stack = .object parent :: below)
    (hparent : s.heap.bean? parent = some (.dynamic bean)) (hfit : c.NamesFit o.namespaceAware)
    (hbound : o.namespaceAware = true → c.LabelsBound scope)
    (hcovers : o.namespaceAware = true → Covers s.spaces scope) :
    Feeds x o.namespaceAware c.events opened s fun opened' s' =>
      opened' = opened ∧ ∃ children, Grown o c parent bean s s' children := by
  induction c generalizing s opened scope parent bean below with
  | done =>
    refine ⟨rfl, [], ⟨?_, ?_, rfl⟩⟩
    · rw [Fragment.ownText, String.append_empty]
    · rw [List.append_nil]
      exact Heap.Changes.refl hparent
  | text content rest ih =>
    intro here
    have hcharacters := leads_characters (κ := κ) hready.capture content
    refine (hcharacters.bind (Action.leads_pure opened _)).reaches ?_
    have hafter : Ready o.trimText { s with text := s.text ++ content } :=
      ⟨hready.found, hready.capture, hready.substitutor⟩
    refine (ih hafter hstack hparent hfit hbound hcovers).mono fun opened' s' h => ?_
    obtain ⟨hopened, children, hgrown⟩ := h
    refine ⟨hopened, children, ⟨?_, hgrown.changes, hgrown.images⟩⟩
    rw [hgrown.scene, Fragment.ownText, ← String.append_assoc]
  | element name attrs inner rest inner_ih rest_ih =>
    obtain ⟨⟨hname, hslash⟩, hfits, hrestfits⟩ := hfit
    intro here
    refine (reaches_start hready hname hslash hcovers (fun ha => (hbound ha).1) here).mono
      fun opened₁ s₁ h₁ => ?_
    obtain ⟨element, rfl, hentered⟩ := h₁
    -- inside the element the object on top is the new one, and its labels are declared
    have hcovers₁ : o.namespaceAware = true → Covers s₁.spaces (declaredIn attrs ++ scope) := by
      intro ha
      rw [hentered.scene, ha]
      exact (hcovers ha).declareAll (declarations attrs)
    refine feeds_append.mpr ((inner_ih (hentered.ready hready) (by rw [hentered.scene])
      hentered.changes.shown hfits (fun ha => (hbound ha).2.1) hcovers₁).mono
      fun opened₂ s₂ h₂ => ?_)
    obtain ⟨rfl, children, hinner⟩ := h₂
    intro there
    -- behind it everything is as it was in front, except for the objects
    obtain ⟨m, h, hclose, htext, hlink⟩ :=
      leads_back (x := x) opened hready hstack hparent hentered hinner there
    refine hclose.reaches ?_
    have hafter : Ready o.trimText { s with heap := h } :=
      ⟨hready.found, hready.capture, hready.substitutor⟩
    refine (rest_ih hafter hstack hlink.shown hrestfits (fun ha => (hbound ha).2.2) hcovers).mono
      fun opened₃ s₃ h₃ => ?_
    obtain ⟨hopened, others, hrest⟩ := h₃
    exact ⟨hopened, _,
      Grown.of_element hentered hinner htext hlink rfl hrest (Heap.lt_size hparent)⟩

end XmlBinding.Generic
