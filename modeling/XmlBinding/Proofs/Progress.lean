import XmlBinding.Dispatch
import XmlBinding.Proofs.Outcome
import XmlBinding.Rule.Effect

/-!
# What rules leave to the dispatcher

How far a document has come is written by events only. A rule that works on objects, stacks and
matchers finds the path, the pending texts and the record of calls, and leaves them as they are. The
standard rules are of this kind; for rules of the user's own it is a condition. One standard rule
starts a capture, and no other.
-/
namespace XmlBinding

variable {κ ε α : Type}

/-- How far a document has come, as far as events alone write it, and what texts go through. -/
structure Progress (κ : Type) where
  path : String
  outerPaths : List String
  matched : List (List (RuleRef κ))
  text : String
  outerTexts : List String
  substitutor : Option Substitutor
  metrics : Metrics
  calls : List (Call κ)

namespace Binder

def progress (b : Binder κ) : Progress κ :=
  ⟨b.path, b.outerPaths, b.matched, b.text, b.outerTexts, b.substitutor, b.metrics, b.calls⟩

/-- The progress of a document together with the node that is captured. -/
def course (b : Binder κ) : Progress κ × Option Capture := (b.progress, b.capture)

/-- The binder without its objects, its journal and what it has shown. -/
def bare (b : Binder κ) : Binder κ := { b with heap := {}, journal := {}, shown := [] }

@[simp] theorem bare_note (b : Binder κ) (level : Level) (channel : Channel) (text : String) :
    (b.note level channel text).bare = b.bare := by
  unfold note
  split <;> rfl

@[simp] theorem course_note (b : Binder κ) (level : Level) (channel : Channel) (text : String) :
    (b.note level channel text).course = b.course := by
  unfold note
  split <;> rfl

/-- The binder without its objects, its messages and the stacks of values. -/
def still (b : Binder κ) : Binder κ := { b.bare with stack := [], root := none, named := ∅ }

theorem still_note (b : Binder κ) (level : Level) (channel : Channel) (text : String) :
    (b.note level channel text).still = b.still := by
  unfold still
  rw [bare_note]

/-- The binder without its objects, its messages and the frames of parameters. -/
def unframed (b : Binder κ) : Binder κ := { b.bare with params := [] }

theorem unframed_note (b : Binder κ) (level : Level) (channel : Channel) (text : String) :
    (b.note level channel text).unframed = b.unframed := by
  unfold unframed
  rw [bare_note]

end Binder

/-- Rules of the user's own that leave the progress of a document alone, even when they fail. -/
structure Extension.Quiet (x : Extension κ) : Prop where
  keeps : ∀ rule cb, (x.fire rule cb).Keeps Binder.course

theorem Extension.quiet_none : Extension.none.Quiet := ⟨nofun⟩

namespace Action

open Binder

/-! ### Access to objects -/

theorem bare_note_action (level : Level) (channel : Channel) (text : String) :
    (note level channel text : Action κ ε Unit).Keeps bare :=
  keeps_modify fun b => bare_note b level channel text

theorem bare_showAccess (e : Binder κ → Event) : (showAccess e : Action κ ε Unit).Keeps bare := by
  refine keeps_modify fun b => ?_
  split <;> rfl

theorem bare_commit (r : Except CallError α × Heap) :
    (commit r : Action κ RuleError α).Keeps bare := by
  obtain ⟨a | cause, heap⟩ := r <;> exact ⟨fun _ => rfl⟩

theorem bare_invoke (target : Value) (method : String) (args : List Value)
    (types : List ScalarType) : (invoke target method args types : Action κ RuleError Value).Keeps
      bare := by
  refine (bare_showAccess _).bind fun _ => keeps_get_bind fun b => ?_
  split
  · exact rfl
  · exact ((bare_note_action ..).bind fun _ => bare_commit _).keepsAt b

theorem bare_setProperty (target : Value) (property : String) (v : Value) :
    (setProperty target property v : Action κ RuleError Unit).Keeps bare :=
  (bare_showAccess _).bind fun _ => keeps_get.bind fun _ => bare_commit _

theorem bare_isWritable (target : Value) (property : String) :
    (isWritable target property : Action κ ε Bool).Keeps bare :=
  keeps_get.bind fun _ => (bare_showAccess _).bind fun _ => keeps_pure _

theorem bare_peek (n : Nat) : (peek n : Action κ ε (Option Value)).Keeps bare := by
  exact keeps_peek n bare_note

/-! ### The stacks -/

theorem still_of_bare {act : Action κ ε α} (h : act.Keeps bare) : act.Keeps still :=
  h.of_view still fun _ => rfl

/-- What changes objects, messages and stacks of values only leaves the progress alone. -/
theorem course_of_still {act : Action κ ε α} (h : act.Keeps still) : act.Keeps course :=
  h.of_view course fun _ => rfl

theorem still_push (v : Value) : (push v : Action κ ε Unit).Keeps still := by
  refine keeps_modify fun b => ?_
  unfold Binder.push
  dsimp only
  split <;> unfold Binder.note <;> split <;> rfl

theorem course_push (v : Value) : (push v : Action κ ε Unit).Keeps course :=
  course_of_still (still_push v)

theorem still_pop : (pop : Action κ ε (Option Value)).Keeps still := by
  refine keeps_modifyGet fun b => ?_
  unfold Binder.pop
  split
  · exact still_note ..
  · rfl

theorem still_popNamed (name : StackName) :
    (popNamed name : Action κ RuleError Value).Keeps still := by
  refine keeps_get_bind fun b => ?_
  unfold Binder.popNamed
  split <;> rfl

theorem still_pushNamed (name : StackName) (v : Value) :
    (modify (·.pushNamed name v) : Action κ ε PUnit).Keeps still :=
  keeps_modify fun _ => rfl

/-! ### Frames of parameters -/

theorem unframed_of_bare {act : Action κ ε α} (h : act.Keeps bare) : act.Keeps unframed :=
  h.of_view unframed fun _ => rfl

theorem unframed_popFrame : (popFrame : Action κ ε (Option (List Value))).Keeps unframed := by
  refine keeps_modifyGet fun b => ?_
  unfold Binder.popFrame
  split
  · exact unframed_note ..
  · rfl

theorem unframed_setParam (index : Nat) (v : Value) :
    (setParam index v : Action κ RuleError Unit).Keeps unframed := by
  refine keeps_get_bind fun b => ?_
  unfold Binder.setParam
  split
  · rfl
  · split <;> rfl

end Action

namespace StandardRule

open XmlBinding.Action Binder

/-! ### Standard rules, action by action -/

theorem bare_top (rule : String) : (top rule : Action κ RuleError Value).Keeps bare := by
  refine (bare_peek 0).bind fun found => ?_
  cases found
  · exact keeps_fail _
  · exact keeps_pure _

theorem bare_isLeftOut (ignoreMissing : Bool) (target : Value) (property : String) :
    (isLeftOut ignoreMissing target property : Action κ RuleError Bool).Keeps bare := by
  unfold isLeftOut
  split
  · exact (bare_isWritable _ _).bind fun _ => keeps_pure _
  · exact keeps_pure _

theorem bare_setFromAttributes (aliases : Dict String (Option String)) (ignoreMissing : Bool)
    (attrs : Attributes) :
    (setFromAttributes aliases ignoreMissing attrs : Action κ RuleError Unit).Keeps bare := by
  refine (bare_top _).bind fun target => Keeps.forM (fun a => ?_) attrs
  unfold setFromAttribute
  split
  · exact keeps_pure _
  · refine (bare_isLeftOut _ _ _).bind fun leftOut => ?_
    split
    · exact bare_note_action ..
    · exact bare_setProperty ..

theorem bare_setNamedProperty (nameAttribute valueAttribute : String) (attrs : Attributes) :
    (setNamedProperty nameAttribute valueAttribute attrs : Action κ RuleError Unit).Keeps bare := by
  unfold setNamedProperty
  split
  · exact bare_note_action ..
  · exact (bare_top _).bind fun _ => bare_setProperty ..

theorem bare_setFromChild (config : NestedConfig) (name text : String) :
    (setFromChild config name text : Action κ RuleError Unit).Keeps bare := by
  unfold setFromChild
  split
  · exact keeps_pure _
  · refine (bare_top _).bind fun target => (bare_isLeftOut _ _ _).bind fun leftOut => ?_
    split
    · exact bare_note_action ..
    · exact bare_setProperty ..

theorem bare_storeNonBlank (trim : Bool) (text : String) :
    (storeNonBlank trim text : Action κ RuleError Unit).Keeps bare := by
  unfold storeNonBlank
  split
  · exact keeps_pure _
  · exact (bare_top _).bind fun _ => bare_setProperty ..

theorem bare_callTarget (offset : Int) :
    (callTarget offset : Action κ RuleError Value).Keeps bare := by
  refine keeps_get.bind fun b => ?_
  dsimp only
  split
  · refine (bare_peek _).bind fun found => ?_
    split
    · exact keeps_pure _
    · exact keeps_fail _
  · exact keeps_fail _

theorem bare_linkEnds (target : LinkTarget) :
    (linkEnds target : Action κ RuleError (Value × Value)).Keeps bare := by
  refine (bare_top _).bind fun child => ?_
  cases target with
  | next =>
    refine (bare_peek 1).bind fun parent => ?_
    cases parent
    · exact keeps_fail _
    · exact keeps_pure _
  | root =>
    refine keeps_get.bind fun b => ?_
    cases b.root
    · exact keeps_fail _
    · exact keeps_pure _
  | top => exact (bare_peek 1).bind fun _ => keeps_pure _

theorem bare_makeLink (target : LinkTarget) (method : String) (type : Option ScalarType) :
    (makeLink target method type : Action κ RuleError Unit).Keeps bare :=
  (bare_linkEnds target).bind fun _ => keeps_get.bind fun _ => (bare_note_action ..).bind fun _ =>
    (bare_invoke ..).discard

theorem still_create (className attr : Option String) (attrs : Attributes) :
    (create className attr attrs : Action κ RuleError Unit).Keeps still := by
  refine (keeps_lift _).bind fun name => keeps_get_bind fun b => ?_
  split
  · rfl
  · exact keepsAt_set_bind rfl ((still_of_bare (bare_note_action ..)).bind fun _ => still_push _)

theorem still_produceObject (source : FactorySource) (ignoreFailure : Bool) (created : StackName)
    (attrs : Attributes) :
    (produceObject source ignoreFailure created attrs : Action κ RuleError Unit).Keeps still := by
  refine keeps_get_bind fun b => keepsAt_set_bind rfl ?_
  split
  · refine (still_push _).bind fun _ => ?_
    split
    · exact still_pushNamed ..
    · exact keeps_pure _
  · split
    · exact (still_of_bare (bare_note_action ..)).bind fun _ => still_pushNamed ..
    · exact keeps_fail _

theorem still_dropProduct (ignoreFailure : Bool) (created : StackName) :
    (dropProduct ignoreFailure created : Action κ RuleError Unit).Keeps still := by
  unfold dropProduct
  split
  · refine (still_popNamed _).bind fun flag => ?_
    split
    · exact still_of_bare (bare_note_action ..)
    · exact still_pop.discard
  · exact still_pop.discard

theorem still_setFromText (property : Option String) (texts : StackName) (name : String) :
    (setFromText property texts name : Action κ RuleError Unit).Keeps still :=
  (still_popNamed _).bind fun _ => still_of_bare ((bare_top _).bind fun _ => bare_setProperty ..)

/-- The end of a decoration changes the matcher and messages only. -/
theorem keeps_undecorateChildren {view : Binder κ → α} (hbare : ∀ b, view b = view b.bare)
    (hmatcher : ∀ b matcher, view { b with matcher } = view b) :
    (undecorateChildren : Action κ RuleError Unit).Keeps view := by
  refine Keeps.bind (keeps_modifyGet fun b => ?_) fun done => ?_
  · unfold Binder.undecorate
    split
    · exact hmatcher ..
    · rfl
  · split
    · exact keeps_pure _
    · exact keeps_get.bind fun _ => (bare_note_action ..).of_view view hbare

/-- Behind its arguments a deferred call changes objects and messages only. -/
theorem keeps_callDeferred {view : Binder κ → α} (hview : ∀ b, view b = view b.bare)
    {arguments : Arguments} {texts : StackName} (method : String) (types : List ScalarType)
    (offset : Int) (h : (collectArguments method arguments texts :
      Action κ RuleError (Option (List Value))).Keeps view) :
    (callDeferred method arguments types offset texts : Action κ RuleError Unit).Keeps view := by
  refine h.bind fun args => ?_
  split
  · exact keeps_pure _
  · exact Keeps.of_view ((bare_callTarget _).bind fun _ => keeps_get.bind fun _ =>
      (bare_note_action ..).bind fun _ => (bare_invoke ..).discard) view hview

theorem unframed_collectFrame (method : String) (size : Nat) (texts : StackName) :
    (collectArguments method (.frame size) texts :
      Action κ RuleError (Option (List Value))).Keeps unframed := by
  refine unframed_popFrame.bind fun frame => ?_
  split
  · exact keeps_fail _
  · split
    · exact (unframed_of_bare (bare_note_action ..)).bind fun _ => keeps_pure _
    · exact keeps_pure _

theorem unframed_callDeferred (method : String) (types : List ScalarType) (offset : Int)
    (size : Nat) (texts : StackName) :
    (callDeferred method (.frame size) types offset texts : Action κ RuleError Unit).Keeps
      unframed :=
  keeps_callDeferred (fun _ => rfl) method types offset (unframed_collectFrame ..)

theorem unframed_fillParameter (index : Nat) (source : ParamSource) (attrs : Attributes) :
    (fillParameter index source attrs : Action κ RuleError Unit).Keeps unframed := by
  cases source with
  | body => exact keeps_pure _
  | attr name =>
    simp only [fillParameter]
    split
    · exact unframed_setParam ..
    · exact keeps_pure _
  | stack depth => exact (unframed_of_bare (bare_peek _)).bind fun _ => unframed_setParam ..

theorem unframed_openFrame (size : Nat) :
    (openFrame size : Action κ RuleError Unit).Keeps unframed := by
  unfold openFrame
  split
  · exact keeps_modify fun _ => rfl
  · exact keeps_crash

/-- Whether the calls of a rule work on objects and stacks of values only. -/
def plain : StandardRule → Bool
  | .setNested _ | .callMethod _ (.frame _) _ _ _ | .callParam .. | .objectParam .. | .pathParam _
  | .nodeCreate _ => false
  | _ => true

theorem still_fire {rule : StandardRule} (h : rule.plain = true) (cb : Callback) :
    (rule.fire cb : Action κ RuleError Unit).Keeps still := by
  cases rule with
  | objectCreate className attr =>
    cases cb with
    | start uri name attrs => exact still_create ..
    | close uri name => exact still_pop.discard
    | _ => exact keeps_pure _
  | factoryCreate source ignoreFailure number =>
    cases cb with
    | start uri name attrs => exact still_produceObject ..
    | close uri name => exact still_dropProduct ..
    | _ => exact keeps_pure _
  | setProperties aliases ignoreMissing =>
    cases cb with
    | start uri name attrs => exact still_of_bare (bare_setFromAttributes ..)
    | _ => exact keeps_pure _
  | setProperty nameAttribute valueAttribute =>
    cases cb with
    | start uri name attrs => exact still_of_bare (bare_setNamedProperty ..)
    | _ => exact keeps_pure _
  | textProperty property number =>
    cases cb with
    | body uri name text => exact still_pushNamed ..
    | close uri name => exact still_setFromText ..
    | _ => exact keeps_pure _
  | nestedChild config =>
    cases cb with
    | body uri name text => exact still_of_bare (bare_setFromChild ..)
    | _ => exact keeps_pure _
  | callMethod method arguments types offset number =>
    cases arguments with
    | frame size => cases h
    | bodyText =>
      cases cb with
      | body uri name text => exact still_pushNamed ..
      | close uri name =>
        exact keeps_callDeferred (fun _ => rfl) _ _ _
          ((still_popNamed _).bind fun _ => keeps_pure _)
      | _ => exact keeps_pure _
    | nothing =>
      cases cb with
      | close uri name => exact keeps_callDeferred (fun _ => rfl) _ _ _ (keeps_pure _)
      | _ => exact keeps_pure _
  | link target method type atStart =>
    cases atStart <;> cases cb
    case false.close | true.start => exact still_of_bare (bare_makeLink ..)
    all_goals exact keeps_pure _
  | storeText trim =>
    cases cb with
    | body uri name text => exact still_of_bare (bare_storeNonBlank ..)
    | _ => exact keeps_pure _
  | _ => cases h

/-- Whether the call of a rule starts a capture. -/
def startsCapture : StandardRule → Callback → Bool
  | .nodeCreate _, .start .. => true
  | _, _ => false

/-- The configuration of a rule that decorates the matcher. -/
def nested? : StandardRule → Option NestedConfig
  | .setNested config => some config
  | _ => none

theorem eq_of_nested? {rule : StandardRule} {config : NestedConfig}
    (h : rule.nested? = some config) : rule = .setNested config := by
  cases rule with
  | setNested own =>
    cases h
    rfl
  | _ => cases h

/-- A rule that neither starts a capture nor decorates the matcher works on objects, stacks and
frames only. -/
theorem keeps_fire {view : Binder κ → α} (hstill : ∀ b, view b = view b.still)
    (hframe : ∀ b, view b = view b.unframed) {rule : StandardRule} {cb : Callback}
    (hnested : rule.nested? = none) (hcapture : rule.startsCapture cb = false) :
    (rule.fire cb : Action κ RuleError Unit).Keeps view := by
  have ofStill {act : Action κ RuleError Unit} (h : act.Keeps still) : act.Keeps view :=
    h.of_view view hstill
  have ofFrame {act : Action κ RuleError Unit} (h : act.Keeps unframed) : act.Keeps view :=
    h.of_view view hframe
  cases rule with
  | setNested config => cases hnested
  | callMethod method arguments types offset number =>
    cases arguments with
    | frame size =>
      cases cb with
      | start uri name attrs => exact ofFrame (unframed_openFrame size)
      | close uri name => exact ofFrame (unframed_callDeferred ..)
      | _ => exact keeps_pure _
    | _ => exact ofStill (still_fire rfl cb)
  | callParam index source number =>
    cases cb with
    | start uri name attrs => exact ofFrame (unframed_fillParameter ..)
    | body uri name text =>
      cases source
      case body => exact ofStill (still_pushNamed ..)
      all_goals exact keeps_pure _
    | close uri name =>
      cases source
      case body =>
        exact ((still_popNamed _).of_view view hstill).bind fun _ => ofFrame (unframed_setParam ..)
      all_goals exact keeps_pure _
    | finish => exact keeps_pure _
  | objectParam index v attr =>
    cases cb with
    | start uri name attrs =>
      cases attr with
      | none => exact ofFrame (unframed_setParam ..)
      | some wanted =>
        simp only [fire, onStart]
        split
        · exact ofFrame (unframed_setParam ..)
        · exact keeps_pure _
    | _ => exact keeps_pure _
  | pathParam index =>
    cases cb with
    | start uri name attrs => exact ofFrame (keeps_get.bind fun _ => unframed_setParam ..)
    | _ => exact keeps_pure _
  | nodeCreate fragment =>
    cases cb with
    | start uri name attrs => cases hcapture
    | close uri name => exact ofStill still_pop.discard
    | _ => exact keeps_pure _
  | _ => exact ofStill (still_fire rfl cb)

/-- Only the start of a node begins a capture, and no standard rule changes more of the course. -/
theorem course_fire (rule : StandardRule) (cb : Callback) (h : rule.startsCapture cb = false) :
    (rule.fire cb : Action κ RuleError Unit).Keeps course := by
  cases hnested : rule.nested? with
  | none => exact keeps_fire (fun _ => rfl) (fun _ => rfl) hnested h
  | some config =>
    obtain rfl := eq_of_nested? hnested
    cases cb with
    | start uri name attrs => exact keeps_modify fun _ => rfl
    | body uri name text => exact keeps_undecorateChildren (fun _ => rfl) fun _ _ => rfl
    | _ => exact keeps_pure _

/-- What shows neither objects, stacks and frames nor the matcher and the captured node is left as
it was by every call. -/
theorem keeps_fire_aside {view : Binder κ → α} (hstill : ∀ b, view b = view b.still)
    (hframe : ∀ b, view b = view b.unframed)
    (hmatcher : ∀ b matcher nextRule, view { b with matcher, nextRule } = view b)
    (hcapture : ∀ b capture, view { b with capture } = view b) (rule : StandardRule)
    (cb : Callback) : (rule.fire cb : Action κ RuleError Unit).Keeps view := by
  cases hnested : rule.nested? with
  | some config =>
    obtain rfl := eq_of_nested? hnested
    have hbare : ∀ b, view b = view b.bare := fun b => (hstill b).trans (hstill b.bare).symm
    cases cb with
    | start uri name attrs => exact keeps_modify fun b => hmatcher b _ _
    | body uri name text => exact keeps_undecorateChildren hbare fun b matcher => hmatcher b matcher b.nextRule
    | _ => exact keeps_pure _
  | none =>
    cases hstarts : rule.startsCapture cb with
    | false => exact keeps_fire hstill hframe hnested hstarts
    | true =>
      cases rule <;> cases cb <;> simp only [startsCapture, Bool.false_eq_true] at hstarts
      exact keeps_modify fun b => hcapture b _

theorem progress_fire (rule : StandardRule) (cb : Callback) :
    (rule.fire cb : Action κ RuleError Unit).Keeps progress :=
  keeps_fire_aside (fun _ => rfl) (fun _ => rfl) (fun _ _ _ => rfl) (fun _ _ => rfl) rule cb

/-- A capture that a call starts has nothing open inside it. -/
theorem fire_startsCapture {rule : StandardRule} {cb : Callback} (h : rule.startsCapture cb = true)
    {b b' : Binder κ} (hr : (rule.fire cb : Action κ RuleError Unit) b = .ok () b') :
    ∃ c, b'.capture = some c ∧ c.nested = [] := by
  cases rule <;> cases cb <;> simp only [startsCapture, Bool.false_eq_true] at h
  cases hr
  exact ⟨_, rfl, rfl⟩

end StandardRule

namespace RuleRef

open XmlBinding.Action Binder

variable {x : Extension κ}

/-- Whether the call of a rule starts a capture. -/
def startsCapture (ref : RuleRef κ) (cb : Callback) : Bool :=
  match ref.rule with
  | .standard rule => rule.startsCapture cb
  | .custom _ => false

theorem course_fire (hx : x.Quiet) (ref : RuleRef κ) (cb : Callback)
    (h : ref.startsCapture cb = false) : (ref.fire x cb).Keeps course := by
  obtain ⟨id, rule | rule⟩ := ref
  · exact StandardRule.course_fire rule cb h
  · exact hx.keeps rule cb

theorem fire_startsCapture {ref : RuleRef κ} {cb : Callback} (h : ref.startsCapture cb = true)
    {b b' : Binder κ} (hr : ref.fire x cb b = .ok () b') :
    ∃ c, b'.capture = some c ∧ c.nested = [] := by
  obtain ⟨id, rule | rule⟩ := ref
  · exact StandardRule.fire_startsCapture h hr
  · cases h

theorem progress_fire (hx : x.Quiet) (ref : RuleRef κ) (cb : Callback) :
    (ref.fire x cb).Keeps progress := by
  obtain ⟨id, rule | rule⟩ := ref
  · exact StandardRule.progress_fire rule cb
  · exact (hx.keeps rule cb).of_view Prod.fst fun _ => rfl

end RuleRef

end XmlBinding
