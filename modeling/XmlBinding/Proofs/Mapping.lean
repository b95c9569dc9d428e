import XmlBinding.Generic
import XmlBinding.Proofs.Dispatch
import XmlBinding.Proofs.Objects
import XmlBinding.Proofs.Spaces

/-!
# The rules of the generic mapping

What the four rules do to one element: at its start tag there is a new object with the attributes,
its text becomes a property, and at its end tag the object is handed to the one below it and leaves
the stack. Each rule changes one object only.
-/
namespace XmlBinding

variable {κ : Type} {x : Extension κ} {s s' : Scene κ}

namespace DynamicBean

/-- A bean with attributes as properties. -/
def withAttributes (bean : DynamicBean) (attrs : Attributes) : DynamicBean :=
  { bean with properties := bean.properties.insertAll (attrs.map fun a => (a.name, .text a.value)) }

/-- A bean with a text as its property `text`, unless the text is blank. -/
def withText (trim : Bool) (text : String) (bean : DynamicBean) : DynamicBean :=
  if Text.isAllBlank text then bean
  else bean.insert "text" (.text (if trim then Text.trim text else text))

/-- A bean with one more child. -/
def withChild (bean : DynamicBean) (child : ObjectId) : DynamicBean :=
  { bean with children := bean.children ++ [.object child] }

end DynamicBean

namespace StandardRule

variable {id : ObjectId} {bean : DynamicBean} {below : Stack Value}

theorem leads_top {rule : String} {v : Value} (h : s.stack = v :: below) :
    (top rule : Action κ RuleError Value).Leads s v s := by
  refine (Action.leads_peek (n := 0) (v := v) ?_).bind (Action.leads_pure v s)
  rw [h]
  rfl

theorem produce_elementBean (b : Binder κ) (attrs : Attributes) :
    produce b .elementBean attrs =
      (.ok (.object b.heap.next),
        (b.heap.alloc (.dynamic { typeName := lastSegment b.path })).2) := by
  change ((Except.ok (.object b.heap.next) : Except RuleError Value),
    ((b.heap.alloc (.dynamic { typeName := lastSegment b.path })).2).modify b.heap.next fun c =>
      { c with bean := c.bean.copyAttributes [] attrs }) = _
  rw [Heap.modify_copyAttributes_nil]

/-- A new object named after the innermost element. -/
theorem leads_produceObject (created : StackName) (attrs : Attributes) (s : Scene κ) :
    (produceObject .elementBean false created attrs : Action κ RuleError Unit).Leads s ()
      { s with
        stack := .object s.heap.next :: s.stack
        heap := (s.heap.alloc (.dynamic { typeName := lastSegment s.path })).2 } := by
  refine Action.leads_get_bind fun b hb => ?_
  subst hb
  rw [produce_elementBean]
  exact Action.leads_push _ _ { b with heap := _ } rfl

theorem leads_setFromAttribute (hb : s.heap.bean? id = some (.dynamic bean))
    (hd : bean.declared = none) (a : Attribute) :
    ∃ h, (setFromAttribute ∅ false (.object id) a : Action κ RuleError Unit).Leads s ()
        { s with heap := h } ∧
      s.heap.Changes h id (.dynamic (bean.insert a.name (.text a.value))) := by
  have hset := Heap.setProperty_dynamic hb hd a.name a.value
  exact ⟨_, (Action.leads_pure false s).bind (Action.leads_setProperty hset),
    Heap.changes_setBean hb _⟩

/-- The attributes become properties, one after the other. -/
theorem leads_setAll (hb : s.heap.bean? id = some (.dynamic bean)) (hd : bean.declared = none)
    (attrs : Attributes) :
    ∃ h, (attrs.forM (setFromAttribute ∅ false (.object id)) : Action κ RuleError Unit).Leads s ()
        { s with heap := h } ∧
      s.heap.Changes h id (.dynamic (bean.withAttributes attrs)) := by
  induction attrs generalizing s bean with
  | nil => exact ⟨s.heap, Action.leads_pure _ s, Heap.Changes.refl hb⟩
  | cons a rest ih =>
    obtain ⟨m, hm, hfirst⟩ := leads_setFromAttribute hb hd a
    obtain ⟨h, hh, hrest⟩ := ih (s := { s with heap := m }) hfirst.shown hd
    exact ⟨h, hm.bind hh, hfirst.trans hrest⟩

theorem leads_setFromAttributes (hstack : s.stack = .object id :: below)
    (hb : s.heap.bean? id = some (.dynamic bean)) (hd : bean.declared = none)
    (attrs : Attributes) :
    ∃ h, (setFromAttributes ∅ false attrs : Action κ RuleError Unit).Leads s ()
        { s with heap := h } ∧
      s.heap.Changes h id (.dynamic (bean.withAttributes attrs)) := by
  obtain ⟨h, hh, hchanges⟩ := leads_setAll hb hd attrs
  exact ⟨h, (leads_top hstack).bind hh, hchanges⟩

/-- A text that is not blank becomes a property. -/
theorem leads_storeNonBlank (hstack : s.stack = .object id :: below)
    (hb : s.heap.bean? id = some (.dynamic bean)) (hd : bean.declared = none) (trim : Bool)
    (text : String) :
    ∃ h, (storeNonBlank trim text : Action κ RuleError Unit).Leads s () { s with heap := h } ∧
      s.heap.Changes h id (.dynamic (bean.withText trim text)) := by
  unfold storeNonBlank DynamicBean.withText
  cases Text.isAllBlank text with
  | true => exact ⟨s.heap, Action.leads_pure _ s, Heap.Changes.refl hb⟩
  | false =>
    have hset := Heap.setProperty_dynamic hb hd "text" (if trim then Text.trim text else text)
    exact ⟨_, (leads_top hstack).bind (Action.leads_setProperty hset), Heap.changes_setBean hb _⟩

/-- The top object is handed to the one below it. -/
theorem leads_makeLink {parent : ObjectId}
    (hstack : s.stack = .object id :: .object parent :: below)
    (hb : s.heap.bean? parent = some (.dynamic bean)) :
    ∃ h, (makeLink .next "addChild" none : Action κ RuleError Unit).Leads s ()
        { s with heap := h } ∧
      s.heap.Changes h parent (.dynamic (bean.withChild id)) := by
  have hends : (linkEnds .next : Action κ RuleError (Value × Value)).Leads s
      (.object parent, .object id) s := by
    have hsecond : s.stack.below? 1 = some (.object parent) := by
      rw [hstack]
      rfl
    exact (leads_top hstack).bind ((Action.leads_peek hsecond).bind (Action.leads_pure _ s))
  have hinvoke := Action.leads_invoke (Heap.prepare_addChild hb id)
    (Heap.call_addChild s.heap parent bean id)
  refine ⟨_, hends.bind (Action.leads_get_bind fun b hbs => ?_), Heap.changes_setBean hb _⟩
  exact ((Action.leads_note _ _ _ s).bind hinvoke.discard) b hbs

end StandardRule

namespace Generic

/-- The rules as they are registered. -/
def refs (trim : Bool) : List (RuleRef κ) :=
  [⟨0, .standard (.factoryCreate .elementBean false 0)⟩, ⟨1, .standard (.setProperties ∅ false)⟩,
    ⟨2, .standard (.storeText trim)⟩, ⟨3, .standard (.link .next "addChild" none false)⟩]

variable {id : ObjectId} {bean : DynamicBean} {below : Stack Value}

/-- At a start tag there is a new object with the attributes. -/
theorem leads_starts (trim : Bool) (uri name : String) (attrs : Attributes) (s : Scene κ) :
    ∃ h, (callRules x (.start uri name attrs) (refs trim)).Leads s ()
        { s with stack := .object s.heap.next :: s.stack, heap := h } ∧
      s.heap.Changes h s.heap.next (.dynamic
        (DynamicBean.withAttributes { typeName := StandardRule.lastSegment s.path } attrs)) := by
  have hnew := Heap.changes_alloc s.heap
    (.dynamic { typeName := StandardRule.lastSegment s.path })
  obtain ⟨h, hset, hchanges⟩ := StandardRule.leads_setFromAttributes (κ := κ)
    (s := { s with
      stack := .object s.heap.next :: s.stack
      heap := (s.heap.alloc (.dynamic { typeName := StandardRule.lastSegment s.path })).2 })
    rfl hnew.shown rfl attrs
  refine ⟨h, ?_, hnew.trans hchanges⟩
  refine leads_callRules_cons (StandardRule.leads_produceObject _ attrs s) ?_
  refine leads_callRules_cons hset ?_
  exact leads_callRules_cons (Action.leads_pure _ _)
    (leads_callRules_cons (Action.leads_pure _ _) (leads_callRules_nil _ _))

/-- The text of an element goes to its object. -/
theorem leads_bodies (hstack : s.stack = .object id :: below)
    (hb : s.heap.bean? id = some (.dynamic bean)) (hd : bean.declared = none) (trim : Bool)
    (uri name text : String) :
    ∃ h, (callRules x (.body uri name text) (refs trim)).Leads s () { s with heap := h } ∧
      s.heap.Changes h id (.dynamic (bean.withText trim text)) := by
  obtain ⟨h, hstore, hchanges⟩ := StandardRule.leads_storeNonBlank hstack hb hd trim text
  refine ⟨h, ?_, hchanges⟩
  refine leads_callRules_cons (Action.leads_pure _ s) ?_
  refine leads_callRules_cons (Action.leads_pure _ s) ?_
  refine leads_callRules_cons hstore ?_
  exact leads_callRules_cons (Action.leads_pure _ _) (leads_callRules_nil _ _)

/-- At the end tag the object is handed on, and then it leaves the stack. -/
theorem leads_closes {parent : ObjectId}
    (hstack : s.stack = .object id :: .object parent :: below)
    (hb : s.heap.bean? parent = some (.dynamic bean)) (trim : Bool) (uri name : String) :
    ∃ h, (callRules x (.close uri name) (refs trim).reverse).Leads s ()
        { s with stack := .object parent :: below, heap := h } ∧
      s.heap.Changes h parent (.dynamic (bean.withChild id)) := by
  obtain ⟨h, hlink, hchanges⟩ := StandardRule.leads_makeLink hstack hb
  refine ⟨h, ?_, hchanges⟩
  refine leads_callRules_cons hlink ?_
  refine leads_callRules_cons (Action.leads_pure _ _) ?_
  refine leads_callRules_cons (Action.leads_pure _ _) ?_
  have hpop := Action.leads_pop (κ := κ) (ε := RuleError) (s := { s with heap := h }) hstack
  exact leads_callRules_cons hpop.discard (leads_callRules_nil _ _)

end Generic

end XmlBinding
