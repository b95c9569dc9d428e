import XmlBinding.Proofs.Image
import XmlBinding.Proofs.Survey

/-!
# The outline of a mapped document

The image of a document says what becomes of a document that is known to have a meaning. The outline
starts from a run that got through: whatever the document is, there is one object for each of its
elements, with the name of the element and with no properties but those of its attributes and its
text, and the objects of the elements inside are its children.
-/
namespace XmlBinding

variable {κ : Type} {x : Extension κ}

namespace Generic

/-! ### Outlines -/

/-- An object is that of an element, as far as names go. -/
structure Outlined (look : ObjectId → Option Bean) (aware : Bool) (name : String)
    (attrs : List (String × String)) (id : ObjectId) (children : List Value) : Prop where
  shown : ∃ bean : DynamicBean, look id = some (.dynamic bean) ∧
    bean.typeName = elementName (nameIn aware name) name ∧
    (∀ property ∈ bean.properties.keys,
      property = "text" ∨ property ∈ (assignments aware attrs).map (·.1)) ∧
    bean.children = children

/-- Values are the objects of the elements at one place, in order. -/
def Outlines (look : ObjectId → Option Bean) (aware : Bool) : Fragment → List Value → Prop
  | .done, vs => vs = []
  | .text _ rest, vs => Outlines look aware rest vs
  | .element name attrs inner rest, vs => ∃ id children others, vs = .object id :: others ∧
    Outlined look aware name attrs id children ∧
    Outlines look aware inner children ∧ Outlines look aware rest others

variable {look look' : ObjectId → Option Bean} {aware : Bool}

theorem Outlines.mono (hlook : ∀ id bean, look id = some bean → look' id = some bean)
    {c : Fragment} {vs : List Value} (h : Outlines look aware c vs) :
    Outlines look' aware c vs := by
  induction c generalizing vs with
  | done => exact h
  | text content rest ih => exact ih h
  | element name attrs inner rest inner_ih rest_ih =>
    obtain ⟨id, children, others, hvs, ⟨bean, hbean, hown⟩, hinner, hrest⟩ := h
    exact ⟨id, children, others, hvs, ⟨bean, hlook id _ hbean, hown⟩, inner_ih hinner,
      rest_ih hrest⟩

/-- The first element with all that is inside it, and nothing else. -/
def Fragment.documentElement : Fragment → Fragment
  | .done => .done
  | .text _ rest => rest.documentElement
  | .element name attrs inner _ => .element name attrs inner .done

/-- The first object is that of the first element. -/
theorem Outlines.documentElement {c : Fragment} {vs : List Value} (h : Outlines look aware c vs) :
    Outlines look aware c.documentElement ((vs.head?.bind Value.object?).toList.map .object) := by
  induction c generalizing vs with
  | done =>
    obtain rfl : vs = [] := h
    rfl
  | text content rest ih => exact ih h
  | element name attrs inner rest _ _ =>
    obtain ⟨id, children, others, rfl, hown, hinner, -⟩ := h
    exact ⟨id, children, [], rfl, hown, hinner, rfl⟩

theorem Outlines.eq_nil_iff {c : Fragment} {vs : List Value}
    (h : Outlines look aware c.documentElement vs) : vs = [] ↔ c.elements = [] := by
  induction c with
  | done => exact iff_of_true h rfl
  | text content rest ih => exact ih h
  | element name attrs inner rest _ _ =>
    obtain ⟨id, children, others, rfl, -⟩ := h
    exact iff_of_false (List.cons_ne_nil _ _) (List.cons_ne_nil _ _)

theorem Fragment.length_names_documentElement (c : Fragment) :
    (c.documentElement.names aware).length ≤ (c.names aware).length := by
  induction c with
  | done => exact Nat.le_refl _
  | text content rest ih => exact ih
  | element name attrs inner rest _ _ =>
    simp only [Fragment.documentElement, names, List.length_cons, List.length_append,
      List.length_nil]
    omega

/-- The object of an element as its start tag leaves it. -/
def shoot (tag : StartTag) : DynamicBean :=
  DynamicBean.withAttributes { typeName := tag.name } tag.attrs

/-- With its children and its text the object is still that of its element. -/
theorem outlined_of_shown {name text : String} {attrs : List (String × String)} {tag : StartTag}
    {id : ObjectId} {children : List Value} {trim : Bool}
    (hname : tag.name = elementName (nameIn aware name) name)
    (hassigned : tag.attrs.map (fun a => (a.name, a.value)) = assignments aware attrs)
    (h : look id = some (.dynamic
      ({ shoot tag with children := children }.withText trim text))) :
    Outlined look aware name attrs id children := by
  have hshoot : ∀ property ∈ (shoot tag).properties.keys,
      property ∈ (assignments aware attrs).map (·.1) := by
    intro property hproperty
    rcases Dict.mem_keys_insertAll.mp hproperty with hattr | hnone
    · rw [List.map_map] at hattr
      rw [← hassigned, List.map_map]
      exact hattr
    · cases hnone
  refine ⟨_, h, ?_, fun property hproperty => ?_, ?_⟩
  · unfold DynamicBean.withText
    split <;> exact hname
  · unfold DynamicBean.withText at hproperty
    split at hproperty
    · exact .inr (hshoot property hproperty)
    · exact (Dict.mem_keys_insert.mp hproperty).imp_right (hshoot property)
  · unfold DynamicBean.withText
    split <;> rfl

end Generic

/-! ### Events that got through -/

/-- A scene without the labels, which a reader changes between two events. -/
def Binder.stage (b : Binder κ) : Scene κ := { b.scene with spaces := fun _ => [] }

theorem Binder.stage_of_unread {s b : Binder κ} (h : s.unread = b.unread) : s.stage = b.stage := by
  have hstage := congrArg stage h
  exact hstage

/-- An action that got through came to where it leads. -/
theorem Action.Leads.stage {ε α : Type} {act : Action κ ε α} {b b' : Binder κ} {a a' : α}
    {s : Scene κ} (h : act.Leads b.scene a s) (hrun : act b = .ok a' b') :
    b'.stage = { s with spaces := fun _ => [] } := by
  obtain ⟨c, hc, rfl⟩ := h b rfl
  obtain ⟨-, rfl⟩ := EStateM.Result.ok.inj (hrun.symm.trans hc)
  rfl

namespace Generic

variable {trim aware : Bool} {b b' o m s : Binder κ} {fs : List (Firing κ)} {parent : ObjectId}
  {bean : DynamicBean} {below : Stack Value} {children others : List Value}

theorem Ready.scene (h : Ready trim b.stage) : Ready trim b.scene :=
  ⟨h.found, h.capture, h.substitutor⟩

/-- Behind the start tag of an element: it is the innermost one, and its object is on top of the
stack. -/
structure Opened (trim : Bool) (tag : StartTag) (b o : Binder κ) : Prop where
  stage : o.stage = { b.stage with
    stack := .object b.heap.next :: b.stack, path := pathInside b.path tag.name
    outerPaths := b.path :: b.outerPaths, matched := refs trim :: b.matched
    text := "", outerTexts := b.text :: b.outerTexts, heap := o.heap }
  changes : b.heap.Changes o.heap b.heap.next (.dynamic (shoot tag))

theorem Ready.start (hready : Ready trim b.stage) (hs : s.stage = b.stage) {tag : StartTag}
    (hslash : '/' ∉ tag.name.toList) (he : Answers x (.start tag) s fs o) :
    Opened trim tag b o := by
  obtain ⟨h, hleads, hchanges⟩ := leads_startElement (x := x) (hs ▸ hready).scene tag
  have hstage := hleads.stage (deliver_of_answers he)
  have hheap : o.heap = h := congrArg Scene.heap hstage
  subst hheap
  rw [lastSegment_pathInside _ hslash] at hchanges
  change s.stage.heap.Changes _ s.stage.heap.next _ at hchanges
  rw [hs] at hchanges
  refine ⟨hstage.trans ?_, hchanges⟩
  exact congrArg (fun S : Scene κ => { S with
    stack := .object S.heap.next :: S.stack, path := pathInside S.path tag.name
    outerPaths := S.path :: S.outerPaths, matched := refs trim :: S.matched
    text := "", outerTexts := S.text :: S.outerTexts, heap := o.heap }) hs

theorem Opened.ready {tag : StartTag} (h : Opened trim tag b o) (hready : Ready trim b.stage) :
    Ready trim o.stage := by
  rw [h.stage]
  exact ⟨hready.found, hready.capture, hready.substitutor⟩

theorem Ready.close {id : ObjectId} {own : DynamicBean} {outer : List (List (RuleRef κ))}
    {text path : String} {outerTexts outerPaths : List String} (hready : Ready trim b.stage)
    (hstack : b.stack = .object id :: .object parent :: below)
    (hown : b.heap.bean? id = some (.dynamic own)) (hd : own.declared = none)
    (hparent : b.heap.bean? parent = some (.dynamic bean)) (hne : parent ≠ id)
    (hmatched : b.matched = refs trim :: outer) (htexts : b.outerTexts = text :: outerTexts)
    (hpaths : b.outerPaths = path :: outerPaths) {tag : EndTag}
    (he : Answers x (.close tag) b fs m) :
    m.stage = { b.stage with
        stack := .object parent :: below, path := path, outerPaths := outerPaths
        matched := outer, text := text, outerTexts := outerTexts, heap := m.heap } ∧
      ∃ h, b.heap.Changes h id (.dynamic (own.withText trim b.text)) ∧
        h.Changes m.heap parent (.dynamic (bean.withChild id)) := by
  obtain ⟨h, last, hleads, htext, hlink⟩ := leads_endElement (x := x) hready.scene hstack hown hd
    hparent hne hmatched htexts hpaths tag
  have hstage := hleads.stage (deliver_of_answers he)
  have hheap : m.heap = last := congrArg Scene.heap hstage
  subst hheap
  exact ⟨hstage, h, htext, hlink⟩

/-! ### Content -/

/-- What content leaves behind: its text, and the objects of its elements as further children of the
object on top of the stack. -/
structure Sprouted (aware : Bool) (c : Fragment) (parent : ObjectId) (bean : DynamicBean)
    (b b' : Binder κ) (children : List Value) : Prop where
  stage : b'.stage = { b.stage with text := b'.text, heap := b'.heap }
  changes : b.heap.Changes b'.heap parent
    (.dynamic { bean with children := bean.children ++ children })
  outlines : Outlines (b'.heap.since b.heap.size) aware c children
  /-- Every element has an object of its own. -/
  room : b.heap.size + (c.names aware).length ≤ b'.heap.size

/-- What the tags of one element do, with content between them: its object is made, gets children
and a text, and is handed to the object around it. -/
structure Raised (aware trim : Bool) (tag : StartTag) (c : Fragment) (parent : ObjectId)
    (bean : DynamicBean) (b m : Binder κ) (children : List Value) : Prop where
  stage : m.stage = { b.stage with heap := m.heap }
  heaps : ∃ (o f : Binder κ) (h : Heap) (text : String),
    b.heap.Changes o.heap b.heap.next (.dynamic (shoot tag)) ∧
    Sprouted aware c b.heap.next (shoot tag) o f children ∧
    f.heap.Changes h b.heap.next
      (.dynamic ({ shoot tag with children := children }.withText trim text)) ∧
    h.Changes m.heap parent (.dynamic (bean.withChild b.heap.next))

theorem Raised.shown {tag : StartTag} {c : Fragment}
    (h : Raised aware trim tag c parent bean b m children) :
    m.heap.bean? parent = some (.dynamic (bean.withChild b.heap.next)) := by
  obtain ⟨_, _, _, _, -, -, -, hlink⟩ := h.heaps
  exact hlink.shown

/-- An end tag raises its element, whose content is there. -/
theorem Opened.raised {tag : StartTag} {closing : EndTag} {c : Fragment} {f t : Binder κ}
    (hopened : Opened trim tag b o) (hready : Ready trim b.stage)
    (hstack : b.stack = .object parent :: below)
    (hparent : b.heap.bean? parent = some (.dynamic bean))
    (hinner : Sprouted aware c b.heap.next (shoot tag) o f children) (ht : t.stage = f.stage)
    (hclose : Answers x (.close closing) t fs m) :
    Raised aware trim tag c parent bean b m children := by
  -- in front of the end tag all is as the start tag left it, but for the text and the objects
  have hplace := (ht.trans hinner.stage).trans (congrArg (fun S : Scene κ => { S with
    text := f.text, heap := f.heap }) hopened.stage)
  have hheap : t.heap = f.heap := congrArg Scene.heap hplace
  have hready' : Ready trim t.stage := by
    rw [hplace]
    exact ⟨hready.found, hready.capture, hready.substitutor⟩
  have hstack' : t.stack = .object b.heap.next :: .object parent :: below := by
    rw [← hstack]
    exact congrArg Scene.stack hplace
  have hlow := Heap.lt_size hparent
  have hgrows := hopened.changes.grows
  have hne : parent ≠ b.heap.next := by
    rintro rfl
    exact Nat.lt_irrefl _ hlow
  have hown := hinner.changes.shown
  have houter : t.heap.bean? parent = some (.dynamic bean) := by
    rw [hheap, hinner.changes.others parent (by omega) hne,
      hopened.changes.others parent hlow hne]
    exact hparent
  rw [← hheap] at hown
  obtain ⟨hback, h, htext, hlink⟩ := hready'.close hstack' hown rfl houter hne
    (congrArg Scene.matched hplace) (congrArg Scene.outerTexts hplace)
    (congrArg Scene.outerPaths hplace) hclose
  rw [hheap] at htext
  refine ⟨?_, o, f, h, t.text, hopened.changes, hinner, htext, hlink⟩
  rw [hback, hplace, ← hstack]
  rfl

/-- An element is raised if its content sprouts. -/
theorem exists_raised {tag : StartTag} {closing : EndTag} {inner : Content} {c : Fragment}
    {es : List DocumentEvent} (hready : Ready trim b.stage)
    (hstack : b.stack = .object parent :: below)
    (hparent : b.heap.bean? parent = some (.dynamic bean)) (hslash : '/' ∉ tag.name.toList)
    (hinner : ∀ {o f : Binder κ} {within}, Ready trim o.stage →
      o.stack = .object b.heap.next :: .object parent :: below →
      o.heap.bean? b.heap.next = some (.dynamic (shoot tag)) →
      Delivered x inner.events o within f →
      ∃ children, Sprouted aware c b.heap.next (shoot tag) o f children)
    (h : Delivered x (.start tag :: (inner.events ++ .close closing :: es)) b fs b') :
    ∃ m gs children, Raised aware trim tag c parent bean b m children ∧
      Delivered x es m gs b' := by
  cases h with
  | @step _ _ _ s o _ _ _ hs hstart hbehind =>
    have hopened := hready.start (Binder.stage_of_unread hs) hslash hstart
    have hstack' : o.stack = .object b.heap.next :: .object parent :: below := by
      rw [← hstack]
      exact congrArg Scene.stack hopened.stage
    obtain ⟨f, within, behind, -, hcontent, hclose⟩ := hbehind.split
    obtain ⟨children, hsprouted⟩ :=
      hinner (hopened.ready hready) hstack' hopened.changes.shown hcontent
    cases hclose with
    | @step _ _ _ t m _ _ gs ht hclose hlater =>
      exact ⟨m, gs, children, hopened.raised hready hstack hparent hsprouted
        (Binder.stage_of_unread ht) hclose, hlater⟩

/-- An element and what stands behind it, from its parts. -/
theorem Sprouted.of_raised {name : String} {attrs : List (String × String)} {tag : StartTag}
    {inner rest : Fragment} (hname : tag.name = elementName (nameIn aware name) name)
    (hassigned : tag.attrs.map (fun a => (a.name, a.value)) = assignments aware attrs)
    (hraised : Raised aware trim tag inner parent bean b m children)
    (hrest : Sprouted aware rest parent (bean.withChild b.heap.next) m b' others)
    (hparent : parent.index < b.heap.size) :
    Sprouted aware (.element name attrs inner rest) parent bean b b'
      (.object b.heap.next :: others) := by
  obtain ⟨o, f, h, text, hborn, hinner, htext, hlink⟩ := hraised.heaps
  have hgraft := Heap.grafted hborn hinner.changes htext hlink hrest.changes hparent
  constructor
  case stage =>
    rw [hrest.stage, hraised.stage]
  case changes =>
    have hchanges := hgraft.changes
    change b.heap.Changes b'.heap parent (.dynamic { bean with
      children := (bean.children ++ [.object b.heap.next]) ++ others }) at hchanges
    rw [List.append_assoc] at hchanges
    exact hchanges
  case outlines =>
    exact ⟨b.heap.next, children, others, rfl, outlined_of_shown hname hassigned hgraft.own,
      hinner.outlines.mono hgraft.inside, hrest.outlines.mono hgraft.behind⟩
  case room =>
    have hborn := hgraft.born
    have hlinked := hgraft.linked
    have hin := hinner.room
    have hout := hrest.room
    simp only [Fragment.names, List.length_cons, List.length_append]
    omega

/-- Content sprouts, wherever it stands. -/
theorem exists_sprouted {c : Fragment} {k : Content} (hc : Renders aware c k)
    (hslash : ∀ name ∈ c.names aware, '/' ∉ name.toList) (hready : Ready trim b.stage)
    (hstack : b.stack = .object parent :: below)
    (hparent : b.heap.bean? parent = some (.dynamic bean)) (h : Delivered x k.events b fs b') :
    ∃ children, Sprouted aware c parent bean b b' children := by
  induction hc generalizing parent bean below b fs b' with
  | done =>
    cases h with
    | done h =>
      have hstage := Binder.stage_of_unread h
      have hheap : b'.heap = b.heap := congrArg Scene.heap hstage
      have htext : b'.text = b.text := congrArg Scene.text hstage
      refine ⟨[], ⟨?_, ?_, rfl, Nat.le_of_eq (congrArg Heap.size hheap.symm)⟩⟩
      · rw [hheap, htext]
        exact hstage
      · rw [hheap, List.append_nil]
        exact Heap.Changes.refl hparent
  | text content hrest ih =>
    have hbehind := h.behind_text
    rw [characters_of_not_capturing content hready.capture] at hbehind
    obtain ⟨children, hstage, hchanges, houtlines, hroom⟩ :=
      ih (b := { b with text := b.text ++ content }) hslash
        ⟨hready.found, hready.capture, hready.substitutor⟩ hstack hparent hbehind
    exact ⟨children, hstage, hchanges, houtlines, hroom⟩
  | element hname hassigned hinner hrest inner_ih rest_ih =>
    obtain ⟨hown, hothers⟩ := List.forall_mem_cons.mp hslash
    obtain ⟨hin, hout⟩ := List.forall_mem_append.mp hothers
    obtain ⟨m, gs, children, hraised, hlater⟩ := exists_raised hready hstack hparent
      (hname ▸ hown) (inner_ih hin) h
    have hreadym : Ready trim m.stage := by
      rw [hraised.stage]
      exact ⟨hready.found, hready.capture, hready.substitutor⟩
    have hstackm : m.stack = .object parent :: below :=
      (congrArg Scene.stack hraised.stage).trans hstack
    obtain ⟨others, hsprouted⟩ := rest_ih hout hreadym hstackm hraised.shown hlater
    exact ⟨_, hsprouted.of_raised hname hassigned hraised (Heap.lt_size hparent)⟩

/-! ### Documents -/

/-- What is left of a text that got through: the object for the document has taken in the objects of
the elements. -/
theorem exists_outlines_parse {b b' : Binder Empty} {o : Options} {text : String}
    {root : Option Value} {document : ObjectId} {bean : DynamicBean}
    (hprepared : Prepared o document bean b.scene) (ho : b.options = o)
    (h : parse .none text b = .ok root b') :
    ∃ c : Fragment, delivered? (Markup.scan text.toList) = some c.events ∧
      ((∀ name ∈ c.names o.namespaceAware, '/' ∉ name.toList) → ∃ children,
        b'.heap.bean? document =
          some (.dynamic { bean with children := bean.children ++ children }) ∧
        Outlines b'.heap.bean? o.namespaceAware c children ∧
        (c.names o.namespaceAware).length ≤ b'.heap.size) := by
  obtain ⟨c, k, m, fs, hread, hrenders, hdelivered, hend⟩ := exists_content h
  rw [ho] at hrenders
  refine ⟨c, hread, fun hslash => ?_⟩
  have hstart : (b.atStart text.toList).scene = b.scene :=
    Binder.scene_note { b with position := some (Position.ofOffset text.toList 0) } ..
  have hready : Ready o.trimText (b.atStart text.toList).stage := by
    unfold Binder.stage
    rw [hstart]
    exact ⟨hprepared.everywhere.rulesFor?_eq, hprepared.capture, hprepared.substitutor⟩
  have hstack : (b.atStart text.toList).stack = [.object document] :=
    (congrArg Scene.stack hstart).trans hprepared.stack
  have hshown : (b.atStart text.toList).heap.bean? document = some (.dynamic bean) := by
    rw [show (b.atStart text.toList).heap = b.heap from congrArg Scene.heap hstart]
    exact hprepared.shown
  obtain ⟨children, hsprouted⟩ :=
    exists_sprouted hrenders hslash hready hstack hshown hdelivered
  -- the end of the document changes no object
  have hleads := leads_endDocument (x := .none) (s := m.scene) fun ref _ => by
    obtain ⟨id, rule⟩ := ref
    cases rule with
    | standard rule => exact ⟨rule, rfl⟩
    | custom none => cases none
  have hheap : b'.heap = m.heap := congrArg Scene.heap (hleads.stage hend)
  rw [hheap]
  refine ⟨children, hsprouted.changes.shown, hsprouted.outlines.mono fun id own hid =>
    (Heap.since_eq_some.mp hid).2, ?_⟩
  have hroom := hsprouted.room
  omega

/-- A text that was mapped is a tree, and the root of the mapping is the object of its first
element. There are at least as many objects as elements. -/
theorem outlines_run {o : Options} {text : String} {m : Mapping} (h : run o text = .ok m) :
    ∃ c : Fragment, delivered? (Markup.scan text.toList) = some c.events ∧
      ((∀ name ∈ c.names o.namespaceAware, '/' ∉ name.toList) →
        Outlines m.heap.bean? o.namespaceAware c.documentElement (m.root.toList.map .object) ∧
        (c.documentElement.names o.namespaceAware).length ≤ m.heap.size) := by
  obtain ⟨b, document, bean, hprepared, hempty, ho, hmap⟩ := exists_prepared o text
  unfold run at h
  rw [hmap] at h
  split at h
  · next root b' hrun =>
    cases h
    obtain ⟨⟨⟩, s, hdiscard, hreturn⟩ := Action.bind_eq_ok.mp hrun
    obtain ⟨answer, hparse⟩ := Action.discard_eq_ok hdiscard
    cases hreturn
    obtain ⟨c, hread, houtlines⟩ := exists_outlines_parse hprepared ho hparse
    refine ⟨c, hread, fun hslash => ?_⟩
    obtain ⟨children, hshown, hchildren, hroom⟩ := houtlines hslash
    have hroot : firstChild? b'.heap document = children.head?.bind Value.object? := by
      unfold firstChild?
      rw [hshown, hempty]
      rfl
    change Outlines _ _ _ ((firstChild? b'.heap document).toList.map .object) ∧ _
    rw [hroot]
    exact ⟨hchildren.documentElement, c.length_names_documentElement.trans hroom⟩
  · cases h

end Generic

end XmlBinding
