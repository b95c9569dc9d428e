import XmlBinding.Document
import XmlBinding.Proofs.Parallel

/-!
# The trace is only written

Whether a trace is collected changes the trace and nothing else. A binder without its trace does in
every step what the binder itself does, and with the same answer, so two runs of which only one
collects a trace fail with the same error or end with the same objects and the same counts.
-/
namespace XmlBinding

variable {κ : Type}

def Metrics.traceless (m : Metrics) : Metrics := { m with reversedTrace := [] }

namespace Binder

/-- The binder as if it collected no trace. -/
def traceless (b : Binder κ) : Binder κ :=
  { b with options := { b.options with collectTrace := false }, metrics := b.metrics.traceless }

/-- The second binder is the first one without its trace. -/
def Shadows (s b : Binder κ) : Prop := b = s.traceless

variable (b : Binder κ)

theorem traceless_note (level : Level) (channel : Channel) (text : String) :
    (b.note level channel text).traceless = b.traceless.note level channel text :=
  apply_ite traceless _ _ _

theorem traceless_push (v : Value) : (b.push v).traceless = b.traceless.push v := by
  cases b
  unfold push note traceless
  dsimp only
  split <;> split <;> rfl

theorem traceless_pop : b.traceless.pop = (b.pop.1, b.pop.2.traceless) := by
  cases b with
  | mk matcher stack =>
  cases stack with
  | nil => exact congrArg (none, ·) (traceless_note ..).symm
  | cons v rest => rfl

theorem traceless_popFrame : b.traceless.popFrame = (b.popFrame.1, b.popFrame.2.traceless) := by
  cases b with
  | mk matcher stack params =>
  cases params with
  | nil => exact congrArg (none, ·) (traceless_note ..).symm
  | cons frame rest => rfl

theorem traceless_undecorate :
    b.traceless.undecorate = (b.undecorate.1, b.undecorate.2.traceless) := by
  unfold undecorate
  rw [show b.traceless.matcher = b.matcher from rfl]
  cases b.matcher.undecorated? <;> rfl

theorem traceless_bindName (label uri : String) :
    (b.bindName label uri).traceless = b.traceless.bindName label uri := by
  unfold bindName
  rw [← traceless_note]
  rfl

theorem traceless_unbindName (label : String) :
    (b.unbindName label).traceless = b.traceless.unbindName label := by
  unfold unbindName
  rw [show b.traceless.bindings = b.bindings from rfl]
  cases b.bindings.get? label with
  | none => exact traceless_note ..
  | some uris =>
    dsimp only
    cases uris.tail <;> rfl

end Binder

namespace Action

open Binder

variable {ε ε' α β : Type} {act : Action κ ε α} {f : α → Action κ ε β}

/-- The action does not read the trace: without it, it does the same and answers the same. -/
abbrev Blind (act : Action κ ε α) : Prop := Follows Shadows Shadows Shadows id act act

theorem blind_pure (a : α) : (pure a : Action κ ε α).Blind := follows_pure a

theorem blind_fail (cause : ε) : (fail cause : Action κ ε α).Blind :=
  follows_fail (fun _ _ => id) cause

theorem blind_lift (r : Except ε α) : (lift r : Action κ ε α).Blind := by
  cases r with
  | ok a => exact blind_pure a
  | error cause => exact blind_fail cause

theorem blind_modify {f : Binder κ → Binder κ} (h : ∀ b, (f b).traceless = f b.traceless) :
    (modify f : Action κ ε PUnit).Blind :=
  follows_modify fun s b hsb => by
    subst hsb
    exact (h s).symm

theorem blind_modifyGet {f : Binder κ → α × Binder κ}
    (h : ∀ b, f b.traceless = ((f b).1, (f b).2.traceless)) :
    (modifyGet f : Action κ ε α).Blind :=
  follows_modifyGet fun s b hsb => by
    subst hsb
    rw [h]
    exact ⟨rfl, rfl⟩

/-- A step that looks at the binder, but not at the trace. -/
theorem blind_get_bind {f : Binder κ → Action κ ε β} (hf : ∀ b, f b.traceless = f b)
    (h : ∀ b, (f b).Blind) : (get >>= f).Blind :=
  Follows.of_get fun s b hsb => by
    subst hsb
    rw [hf]
    exact h s

theorem Blind.bind (h : act.Blind) (hf : ∀ a, (f a).Blind) : (act >>= f).Blind :=
  Follows.bind h hf

theorem Blind.attempt (h : act.Blind) : (act.attempt : Action κ ε' (Except ε α)).Blind := by
  refine ⟨fun s b hsb => ?_⟩
  have hrun : Together (Except.map id) _ Shadows ((act.attempt : Action κ ε' (Except ε α)) s)
      (act.attempt b) := (h.together s b hsb).attempt
  rw [Except.map_id] at hrun
  exact hrun.mono (fun r s' b' hgood => by cases r <;> exact hgood) fun _ _ => id

theorem blind_note (level : Level) (channel : Channel) (text : String) :
    (note level channel text : Action κ ε Unit).Blind :=
  blind_modify fun b => b.traceless_note level channel text

theorem blind_push (v : Value) : (push v : Action κ ε Unit).Blind :=
  blind_modify fun b => b.traceless_push v

theorem blind_pop : (pop : Action κ ε (Option Value)).Blind := blind_modifyGet traceless_pop

theorem blind_peek (n : Nat) : (peek n : Action κ ε (Option Value)).Blind := by
  have hfollows : Follows Shadows Shadows Shadows (Option.map id)
      (peek n : Action κ ε (Option Value)) (peek n) := by
    refine follows_peek n (fun s b hsb => ?_) fun s b level channel text hsb => ?_
    · rw [hsb, List.map_id]
      rfl
    · rw [hsb]
      exact (s.traceless_note level channel text).symm
  rwa [Option.map_id] at hfollows

theorem blind_popFrame : (popFrame : Action κ ε (Option (List Value))).Blind :=
  blind_modifyGet traceless_popFrame

theorem blind_setParam (index : Nat) (v : Value) :
    (setParam index v : Action κ RuleError Unit).Blind := by
  refine follows_get_bind fun s b hsb => ?_
  subst hsb
  unfold Binder.setParam
  rw [show s.traceless.params = s.params from rfl]
  cases s.params with
  | nil => exact .error rfl
  | cons frame rest =>
    dsimp only
    split
    · exact .ok rfl
    · exact .error rfl

theorem blind_popNamed (name : StackName) : (popNamed name : Action κ RuleError Value).Blind := by
  refine follows_get_bind fun s b hsb => ?_
  subst hsb
  unfold Binder.popNamed
  rw [show s.traceless.named = s.named from rfl]
  cases s.named.pop? name with
  | none => exact .error rfl
  | some popped => exact .ok rfl

theorem blind_pushNamed (name : StackName) (v : Value) :
    (modify (·.pushNamed name v) : Action κ ε PUnit).Blind :=
  blind_modify fun _ => rfl

/-! ### Objects -/

theorem blind_showAccess {e : Binder κ → Event} (he : ∀ b, e b.traceless = e b) :
    (showAccess e : Action κ ε Unit).Blind := by
  refine blind_modify fun b => ?_
  rw [he]
  exact apply_ite traceless _ _ _

theorem blind_commit (r : Except CallError α × Heap) :
    (commit r : Action κ RuleError α).Blind := by
  have hstore : (modify ({ · with heap := r.2 }) : Action κ RuleError PUnit).Blind :=
    blind_modify fun _ => rfl
  refine hstore.bind fun _ => ?_
  obtain ⟨cause | a, heap⟩ := r
  · exact blind_fail _
  · exact blind_pure a

theorem blind_invoke (target : Value) (method : String) (args : List Value)
    (types : List ScalarType) :
    (invoke target method args types : Action κ RuleError Value).Blind := by
  refine (blind_showAccess fun _ => rfl).bind fun _ => blind_get_bind (fun _ => rfl) fun b => ?_
  cases b.heap.prepare target method args types with
  | error cause => exact blind_fail _
  | ok prepared => exact (blind_note ..).bind fun _ => blind_commit _

theorem blind_setProperty (target : Value) (property : String) (v : Value) :
    (setProperty target property v : Action κ RuleError Unit).Blind :=
  (blind_showAccess fun _ => rfl).bind fun _ => blind_get_bind (fun _ => rfl) fun _ =>
    blind_commit _

theorem blind_isWritable (target : Value) (property : String) :
    (isWritable target property : Action κ ε Bool).Blind :=
  blind_get_bind (fun _ => rfl) fun _ =>
    (blind_showAccess fun _ => rfl).bind fun _ => blind_pure _

end Action

/-! ### Rules -/

namespace StandardRule

open XmlBinding.Action

theorem blind_top (rule : String) : (top rule : Action κ RuleError Value).Blind := by
  refine (blind_peek 0).bind fun found => ?_
  cases found with
  | none => exact blind_fail _
  | some v => exact blind_pure v

theorem blind_create (className attr : Option String) (attrs : Attributes) :
    (create className attr attrs : Action κ RuleError Unit).Blind := by
  refine (blind_lift _).bind fun name => follows_get_bind fun s b hsb => ?_
  subst hsb
  rw [show s.traceless.classes = s.classes from rfl]
  cases s.classes.get? name with
  | none => exact .error rfl
  | some recipe =>
    have hmade (made : ObjectId) : (do
        note .debug .rules ("[ObjectCreateRule] new " ++ name ++ " at '" ++ s.path ++ "'")
        push (.object made) : Action κ RuleError Unit).Blind :=
      (blind_note ..).bind fun _ => blind_push _
    exact (hmade _).together _ _ rfl

theorem blind_produceObject (source : FactorySource) (ignoreFailure : Bool) (created : StackName)
    (attrs : Attributes) :
    (produceObject source ignoreFailure created attrs : Action κ RuleError Unit).Blind := by
  refine follows_get_bind fun s b hsb => ?_
  subst hsb
  have hproduce : produce s.traceless source attrs = produce s source attrs := by
    cases source <;> rfl
  rw [hproduce]
  obtain ⟨cause | v, heap⟩ := produce s source attrs
  · have hfailed : (if ignoreFailure then do
          note .info .rules ("[FactoryCreateRule] creation failed at '" ++ s.path ++
            "', ignored: " ++ cause.message)
          modify (·.pushNamed created (.bool false))
        else fail cause : Action κ RuleError Unit).Blind := by
      split
      · exact (blind_note ..).bind fun _ => blind_pushNamed created (.bool false)
      · exact blind_fail _
    exact hfailed.together { s with heap } _ rfl
  · have hmade : (do
        push v
        if ignoreFailure then modify (·.pushNamed created (.bool true)) :
        Action κ RuleError Unit).Blind := by
      refine (blind_push v).bind fun _ => ?_
      split
      · exact blind_pushNamed created (.bool true)
      · exact blind_pure _
    exact hmade.together { s with heap } _ rfl

theorem blind_dropProduct (ignoreFailure : Bool) (created : StackName) :
    (dropProduct ignoreFailure created : Action κ RuleError Unit).Blind := by
  unfold dropProduct
  split
  · refine (blind_popNamed created).bind fun flag => ?_
    split
    · exact blind_note ..
    · exact blind_pop.discard
  · exact blind_pop.discard

/-! ### Properties -/

theorem blind_isLeftOut (ignoreMissing : Bool) (target : Value) (property : String) :
    (isLeftOut ignoreMissing target property : Action κ RuleError Bool).Blind := by
  unfold isLeftOut
  split
  · exact (blind_isWritable target property).bind fun _ => blind_pure _
  · exact blind_pure _

theorem blind_setFromAttributes (aliases : Dict String (Option String)) (ignoreMissing : Bool)
    (attrs : Attributes) :
    (setFromAttributes aliases ignoreMissing attrs : Action κ RuleError Unit).Blind := by
  refine (blind_top _).bind fun target => follows_forM fun a => ?_
  unfold setFromAttribute
  split
  · exact blind_pure _
  · refine (blind_isLeftOut ignoreMissing target _).bind fun leftOut => ?_
    split
    · exact blind_note ..
    · exact blind_setProperty ..

theorem blind_setNamedProperty (nameAttribute valueAttribute : String) (attrs : Attributes) :
    (setNamedProperty nameAttribute valueAttribute attrs : Action κ RuleError Unit).Blind := by
  unfold setNamedProperty
  split
  · exact blind_note ..
  · exact (blind_top _).bind fun target => blind_setProperty ..

theorem blind_setFromText (property : Option String) (texts : StackName) (name : String) :
    (setFromText property texts name : Action κ RuleError Unit).Blind :=
  (blind_popNamed texts).bind fun _ => (blind_top _).bind fun _ => blind_setProperty ..

theorem blind_setFromChild (config : NestedConfig) (name text : String) :
    (setFromChild config name text : Action κ RuleError Unit).Blind := by
  unfold setFromChild
  split
  · exact blind_pure _
  · refine (blind_top _).bind fun target =>
      (blind_isLeftOut config.allowUnknown target _).bind fun leftOut => ?_
    split
    · exact blind_note ..
    · exact blind_setProperty ..

theorem blind_storeNonBlank (trim : Bool) (text : String) :
    (storeNonBlank trim text : Action κ RuleError Unit).Blind := by
  unfold storeNonBlank
  split
  · exact blind_pure _
  · exact (blind_top _).bind fun _ => blind_setProperty ..

theorem blind_decorateChildren (config : NestedConfig) :
    (decorateChildren config : Action κ RuleError Unit).Blind := blind_modify fun _ => rfl

theorem blind_undecorateChildren : (undecorateChildren : Action κ RuleError Unit).Blind := by
  have hremove : (modifyGet Binder.undecorate : Action κ RuleError Bool).Blind :=
    blind_modifyGet Binder.traceless_undecorate
  refine hremove.bind fun done => ?_
  split
  · exact blind_pure _
  · exact blind_get_bind (fun _ => rfl) fun _ => blind_note ..

/-! ### Calls -/

theorem blind_callTarget (offset : Int) :
    (callTarget offset : Action κ RuleError Value).Blind := by
  refine blind_get_bind (fun _ => rfl) fun b => ?_
  dsimp only
  cases callIndex? offset b.stack.length with
  | none => exact blind_fail _
  | some index =>
    refine (blind_peek index).bind fun found => ?_
    split
    · exact blind_pure _
    · exact blind_fail _

theorem blind_collectArguments (method : String) (arguments : Arguments) (texts : StackName) :
    (collectArguments method arguments texts :
      Action κ RuleError (Option (List Value))).Blind := by
  cases arguments with
  | bodyText => exact (blind_popNamed texts).bind fun _ => blind_pure _
  | nothing => exact blind_pure _
  | frame size =>
    refine blind_popFrame.bind fun frame => ?_
    cases frame with
    | none => exact blind_fail _
    | some frame =>
      dsimp only
      split
      · exact (blind_note ..).bind fun _ => blind_pure _
      · exact blind_pure _

theorem blind_callDeferred (method : String) (arguments : Arguments) (types : List ScalarType)
    (offset : Int) (texts : StackName) :
    (callDeferred method arguments types offset texts : Action κ RuleError Unit).Blind := by
  refine (blind_collectArguments method arguments texts).bind fun args => ?_
  cases args with
  | none => exact blind_pure _
  | some args =>
    exact (blind_callTarget offset).bind fun target => blind_get_bind (fun _ => rfl) fun _ =>
      (blind_note ..).bind fun _ => (blind_invoke target method args types).discard

theorem blind_fillParameter (index : Nat) (source : ParamSource) (attrs : Attributes) :
    (fillParameter index source attrs : Action κ RuleError Unit).Blind := by
  cases source with
  | body => exact blind_pure _
  | attr name =>
    simp only [fillParameter]
    split
    · exact blind_setParam ..
    · exact blind_pure _
  | stack depth => exact (blind_peek depth).bind fun _ => blind_setParam ..

theorem blind_linkEnds (target : LinkTarget) :
    (linkEnds target : Action κ RuleError (Value × Value)).Blind := by
  refine (blind_top _).bind fun child => ?_
  cases target with
  | next =>
    refine (blind_peek 1).bind fun parent => ?_
    cases parent with
    | none => exact blind_fail _
    | some parent => exact blind_pure _
  | root =>
    refine blind_get_bind (fun _ => rfl) fun b => ?_
    cases b.root with
    | none => exact blind_fail _
    | some root => exact blind_pure _
  | top => exact (blind_peek 1).bind fun _ => blind_pure _

theorem blind_makeLink (target : LinkTarget) (method : String) (type : Option ScalarType) :
    (makeLink target method type : Action κ RuleError Unit).Blind :=
  (blind_linkEnds target).bind fun _ => blind_get_bind (fun _ => rfl) fun _ =>
    (blind_note ..).bind fun _ => (blind_invoke ..).discard

theorem blind_openFrame (size : Nat) : (openFrame size : Action κ RuleError Unit).Blind := by
  unfold openFrame
  split
  · exact blind_modify fun _ => rfl
  · exact follows_crash

/-! ### The three occasions -/

theorem blind_onStart (rule : StandardRule) (uri name : String) (attrs : Attributes) :
    (rule.onStart uri name attrs : Action κ RuleError Unit).Blind := by
  cases rule with
  | objectCreate className attr => exact blind_create ..
  | factoryCreate source ignoreFailure number => exact blind_produceObject ..
  | setProperties aliases ignoreMissing => exact blind_setFromAttributes ..
  | setProperty nameAttribute valueAttribute => exact blind_setNamedProperty ..
  | setNested config => exact blind_decorateChildren config
  | callMethod method arguments types offset number =>
    cases arguments with
    | frame size => exact blind_openFrame size
    | bodyText | nothing => exact blind_pure _
  | callParam index source number => exact blind_fillParameter ..
  | objectParam index v attr =>
    cases attr with
    | none => exact blind_setParam index v
    | some wanted =>
      simp only [onStart]
      split
      · exact blind_setParam index v
      · exact blind_pure _
  | pathParam index => exact blind_get_bind (fun _ => rfl) fun _ => blind_setParam ..
  | link target method type atStart =>
    cases atStart with
    | true => exact blind_makeLink target method type
    | false => exact blind_pure _
  | nodeCreate fragment => exact blind_modify fun _ => rfl
  | _ => exact blind_pure _

theorem blind_onBody (rule : StandardRule) (name text : String) :
    (rule.onBody name text : Action κ RuleError Unit).Blind := by
  cases rule with
  | textProperty property number => exact blind_pushNamed ..
  | setNested config => exact blind_undecorateChildren
  | nestedChild config => exact blind_setFromChild ..
  | callMethod method arguments types offset number =>
    cases arguments with
    | bodyText => exact blind_pushNamed ..
    | nothing | frame size => exact blind_pure _
  | callParam index source number =>
    cases source with
    | body => exact blind_pushNamed ..
    | attr name | stack depth => exact blind_pure _
  | storeText trim => exact blind_storeNonBlank ..
  | _ => exact blind_pure _

theorem blind_onClose (rule : StandardRule) (name : String) :
    (rule.onClose name : Action κ RuleError Unit).Blind := by
  cases rule with
  | objectCreate className attr => exact blind_pop.discard
  | factoryCreate source ignoreFailure number => exact blind_dropProduct ..
  | textProperty property number => exact blind_setFromText ..
  | callMethod method arguments types offset number => exact blind_callDeferred ..
  | callParam index source number =>
    cases source with
    | body => exact (blind_popNamed _).bind fun _ => blind_setParam ..
    | attr name | stack depth => exact blind_pure _
  | link target method type atStart =>
    cases atStart with
    | true => exact blind_pure _
    | false => exact blind_makeLink target method type
  | nodeCreate fragment => exact blind_pop.discard
  | _ => exact blind_pure _

/-- No standard rule reads the trace. -/
theorem blind_fire (rule : StandardRule) (cb : Callback) :
    (rule.fire cb : Action κ RuleError Unit).Blind := by
  cases cb with
  | start uri name attrs => exact rule.blind_onStart uri name attrs
  | body uri name text => exact rule.blind_onBody name text
  | close uri name => exact rule.blind_onClose name
  | finish => exact blind_pure _

end StandardRule

end XmlBinding
