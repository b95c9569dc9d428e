import XmlBinding.Proofs.Mirror

/-!
# Rules and their mirror images

What a standard rule does on a binder it does on a related one too, with the objects of that binder.
Where it makes an object, that has to be a new one. A decoration is one more on both sides, under an
identity of its own on each.
-/
namespace XmlBinding

/-- Whatever the rule makes by itself is made anew, and it holds no objects. -/
def StandardRule.Closed (labels : Labels) : StandardRule → Prop
  | .factoryCreate (.direct factory) _ _ => factory.product.Closed labels
  | .objectParam _ v _ => v.Objectless
  | _ => True

/-- The classes and the factories refer to no object that was there before. -/
structure Setup.Closed (setup : Setup) : Prop where
  classes : ∀ name recipe, setup.classes.get? name = some recipe → recipe.Closed setup.labels
  factories : ∀ name factory, setup.factories.get? name = some factory →
    factory.product.Closed setup.labels

namespace StandardRule

open XmlBinding.Action

variable {g : Ground} {i : Stage}

theorem mirrored_top (rule : String) :
    Mirrored g i i (Value.rename g.objects.place) (top rule : Action Empty RuleError Value)
      (top rule) := by
  refine (mirrored_peek 0).bind fun found => ?_
  cases found with
  | none => exact mirrored_fail _
  | some v => exact follows_pure _

/-! ### Objects -/

theorem mirrored_create (hg : g.setup.Closed) (className attr : Option String)
    (attrs : Attributes) :
    Mirrored g i i id (create className attr attrs : Action Empty RuleError Unit)
      (create className attr attrs) := by
  refine (mirrored_lift _).bind fun name => follows_get_bind fun s b h => ?_
  have hfound : b.classes.get? (id name) = s.classes.get? name :=
    congrArg (fun setup : Setup => setup.classes.get? name) h.setup_eq
  rw [hfound]
  cases hrecipe : s.classes.get? name with
  | none => exact .error h.related
  | some recipe =>
    have hclosed : recipe.Closed s.labels := by
      rw [← h.setup_first] at hg
      exact hg.classes name recipe hrecipe
    have hmake : recipe.make b.labels b.heap = (g.objects.place (recipe.make s.labels s.heap).1,
        g.objects.behind (recipe.make s.labels s.heap).2) := by
      rw [show b.labels = s.labels from congrArg Setup.labels h.setup_eq, h.heap]
      exact recipe.buildsAnew hclosed g.objects s.heap
    dsimp only
    rw [hmake]
    have hmade (made : ObjectId) : Mirrored g i i id
        (do
          note .debug .rules ("[ObjectCreateRule] new " ++ name ++ " at '" ++ s.path ++ "'")
          push (.object made) : Action Empty RuleError Unit)
        (do
          note .debug .rules ("[ObjectCreateRule] new " ++ name ++ " at '" ++ b.path ++ "'")
          push (.object (g.objects.place made))) :=
      (mirrored_note ..).bind fun _ => mirrored_push (.object made)
    exact (hmade _).together _ _ (h.store _)

theorem produce_behind {s b : Binder Empty} (h : Mirrors g i s b) (hg : g.setup.Closed)
    {source : FactorySource} {ignoreFailure : Bool} {number : Nat}
    (hrule : (factoryCreate source ignoreFailure number).Closed g.setup.labels)
    (attrs : Attributes) :
    produce b source attrs = ((produce s source attrs).1.map (Value.rename g.objects.place),
      g.objects.behind (produce s source attrs).2) := by
  have hfactory : factoryFor b source attrs = factoryFor s source attrs := by
    cases source with
    | direct factory => rfl
    | elementBean =>
      simp only [factoryFor]
      rw [h.path]
    | named name attr =>
      simp only [factoryFor]
      rw [show b.factories = s.factories from congrArg Setup.factories h.setup_eq]
  have hclosed : ∀ factory, factoryFor s source attrs = .ok factory →
      factory.product.Closed s.labels := by
    intro factory hok
    rw [← h.setup_first] at hg hrule
    cases source with
    | direct own =>
      cases hok
      exact hrule
    | elementBean =>
      cases hok
      exact trivial
    | named name attr =>
      simp only [factoryFor] at hok
      split at hok
      · next own hown =>
        cases hok
        exact hg.factories _ _ hown
      · cases hok
  unfold produce
  rw [hfactory]
  cases hf : factoryFor s source attrs with
  | error cause => exact Prod.ext rfl h.heap
  | ok factory =>
    simp only
    rw [show b.labels = s.labels from congrArg Setup.labels h.setup_eq, h.path, h.heap]
    exact factory.buildsAnew (hclosed factory hf) s.path attrs g.objects s.heap

theorem mirrored_produceObject (hg : g.setup.Closed) {source : FactorySource}
    {ignoreFailure : Bool} {number : Nat}
    (hrule : (factoryCreate source ignoreFailure number).Closed g.setup.labels)
    (created : StackName) (attrs : Attributes) :
    Mirrored g i i id
      (produceObject source ignoreFailure created attrs : Action Empty RuleError Unit)
      (produceObject source ignoreFailure created attrs) := by
  refine follows_get_bind fun s b h => ?_
  rw [produce_behind h hg hrule]
  obtain ⟨cause | v, heap⟩ := produce s source attrs
  · have hfailed : Mirrored g i i id
        (if ignoreFailure then do
          note .info .rules ("[FactoryCreateRule] creation failed at '" ++ s.path ++
            "', ignored: " ++ cause.message)
          modify (·.pushNamed created (.bool false))
        else fail cause : Action Empty RuleError Unit)
        (if ignoreFailure then do
          note .info .rules ("[FactoryCreateRule] creation failed at '" ++ b.path ++
            "', ignored: " ++ cause.message)
          modify (·.pushNamed created (.bool false))
        else fail cause) := by
      split
      · exact (mirrored_note ..).bind fun _ => mirrored_pushNamed created (.bool false)
      · exact mirrored_fail _
    exact hfailed.together _ _ (h.store heap)
  · have hmade : Mirrored g i i id
        (do
          push v
          if ignoreFailure then modify (·.pushNamed created (.bool true)) :
          Action Empty RuleError Unit)
        (do
          push (v.rename g.objects.place)
          if ignoreFailure then modify (·.pushNamed created (.bool true))) := by
      refine (mirrored_push v).bind fun _ => ?_
      split
      · exact mirrored_pushNamed created (.bool true)
      · exact follows_pure _
    exact hmade.together _ _ (h.store heap)

theorem mirrored_dropProduct (ignoreFailure : Bool) (created : StackName) :
    Mirrored g i i id (dropProduct ignoreFailure created : Action Empty RuleError Unit)
      (dropProduct ignoreFailure created) := by
  unfold dropProduct
  split
  · refine (mirrored_popNamed created).bind fun flag => ?_
    have hdrop : Mirrored g i i id (Functor.discard pop : Action Empty RuleError Unit)
        (Functor.discard pop) := mirrored_pop.discard
    cases flag with
    | bool made =>
      cases made
      · exact mirrored_note ..
      · exact hdrop
    | _ => exact hdrop
  · exact mirrored_pop.discard

/-! ### Properties -/

theorem mirrored_isLeftOut (ignoreMissing : Bool) (target : Value) (property : String) :
    Mirrored g i i id (isLeftOut ignoreMissing target property : Action Empty RuleError Bool)
      (isLeftOut ignoreMissing (target.rename g.objects.place) property) := by
  unfold isLeftOut
  split
  · exact (mirrored_isWritable target property).bind fun writable => follows_pure _
  · exact follows_pure _

theorem mirrored_setFromAttributes (aliases : Dict String (Option String)) (ignoreMissing : Bool)
    (attrs : Attributes) :
    Mirrored g i i id
      (setFromAttributes aliases ignoreMissing attrs : Action Empty RuleError Unit)
      (setFromAttributes aliases ignoreMissing attrs) := by
  refine (mirrored_top _).bind fun target => follows_forM fun a => ?_
  unfold setFromAttribute
  split
  · exact follows_pure _
  · refine (mirrored_isLeftOut ignoreMissing target _).bind fun leftOut => ?_
    cases leftOut
    · exact mirrored_setProperty target _ (.text a.value)
    · exact mirrored_note ..

theorem mirrored_setNamedProperty (nameAttribute valueAttribute : String) (attrs : Attributes) :
    Mirrored g i i id
      (setNamedProperty nameAttribute valueAttribute attrs : Action Empty RuleError Unit)
      (setNamedProperty nameAttribute valueAttribute attrs) := by
  unfold setNamedProperty
  split
  · exact mirrored_note ..
  · next property _ =>
    refine (mirrored_top _).bind fun target => ?_
    cases attrs.value? valueAttribute with
    | none => exact mirrored_setProperty target property .null
    | some text => exact mirrored_setProperty target property (.text text)

theorem mirrored_setFromText (property : Option String) (texts : StackName) (name : String) :
    Mirrored g i i id (setFromText property texts name : Action Empty RuleError Unit)
      (setFromText property texts name) :=
  (mirrored_popNamed texts).bind fun v => (mirrored_top _).bind fun target =>
    mirrored_setProperty target _ v

theorem mirrored_setFromChild (config : NestedConfig) (name text : String) :
    Mirrored g i i id (setFromChild config name text : Action Empty RuleError Unit)
      (setFromChild config name text) := by
  unfold setFromChild
  split
  · exact follows_pure _
  · refine (mirrored_top _).bind fun target =>
      (mirrored_isLeftOut config.allowUnknown target _).bind fun leftOut => ?_
    cases leftOut
    · exact mirrored_setProperty target _ (.text _)
    · exact mirrored_note ..

theorem mirrored_storeNonBlank (trim : Bool) (text : String) :
    Mirrored g i i id (storeNonBlank trim text : Action Empty RuleError Unit)
      (storeNonBlank trim text) := by
  unfold storeNonBlank
  split
  · exact follows_pure _
  · exact (mirrored_top _).bind fun target => mirrored_setProperty target "text" (.text _)

/-! ### Decorations -/

/-! ### Calls -/

theorem mirrored_callTarget (offset : Int) :
    Mirrored g i i (Value.rename g.objects.place)
      (callTarget offset : Action Empty RuleError Value) (callTarget offset) := by
  refine Follows.of_get fun s b h => ?_
  have hdepth : b.stack.length = s.stack.length := by rw [h.stack, List.length_map]
  dsimp only
  rw [hdepth]
  cases callIndex? offset s.stack.length with
  | none => exact mirrored_fail _
  | some index =>
    refine (mirrored_peek index).bind fun found => ?_
    rw [Option.filter_map]
    simp only [Function.comp_def, Value.isNull_rename]
    cases found.filter (!·.isNull) with
    | none => exact mirrored_fail _
    | some v => exact follows_pure v

theorem mirrored_collectArguments (method : String) (arguments : Arguments) (texts : StackName) :
    Mirrored g i i (Option.map (List.map (Value.rename g.objects.place)))
      (collectArguments method arguments texts : Action Empty RuleError (Option (List Value)))
      (collectArguments method arguments texts) := by
  cases arguments with
  | bodyText => exact (mirrored_popNamed texts).bind fun v => follows_pure _
  | nothing => exact follows_pure _
  | frame size =>
    refine mirrored_popFrame.bind fun frame => ?_
    cases frame with
    | none => exact mirrored_fail _
    | some frame =>
      have hnull : ((frame.map (Value.rename g.objects.place)).headD .null).isNull =
          (frame.headD .null).isNull := by
        cases frame with
        | nil => rfl
        | cons v rest => exact v.isNull_rename _
      simp only [Option.map_some, hnull]
      split
      · exact (mirrored_note ..).bind fun _ => follows_pure _
      · exact follows_pure _

theorem mirrored_callDeferred (method : String) (arguments : Arguments) (types : List ScalarType)
    (offset : Int) (texts : StackName) :
    Mirrored g i i id
      (callDeferred method arguments types offset texts : Action Empty RuleError Unit)
      (callDeferred method arguments types offset texts) := by
  refine (mirrored_collectArguments method arguments texts).bind fun args => ?_
  cases args with
  | none => exact follows_pure _
  | some args =>
    refine (mirrored_callTarget offset).bind fun target => Follows.of_get fun _ _ _ => ?_
    exact (mirrored_note ..).bind fun _ => (mirrored_invoke target method args types).discard

theorem mirrored_fillParameter (index : Nat) (source : ParamSource) (attrs : Attributes) :
    Mirrored g i i id (fillParameter index source attrs : Action Empty RuleError Unit)
      (fillParameter index source attrs) := by
  cases source with
  | body => exact follows_pure _
  | attr name =>
    simp only [fillParameter]
    split
    · exact mirrored_setParam index (.text _)
    · exact follows_pure _
  | stack depth =>
    refine (mirrored_peek depth).bind fun found => ?_
    cases found with
    | none => exact mirrored_setParam index .null
    | some v => exact mirrored_setParam index v

/-- A rule that has found an object has found a root too. -/
theorem meets_top (rule : String) (s : Binder Empty) :
    (top rule : Action Empty RuleError Value).Meets s (fun _ s' => s'.stack ≠ [])
      fun _ _ => True := by
  rw [top, meets_iff]
  refine ⟨fun v s' htop => ?_, fun _ _ _ => trivial⟩
  obtain ⟨found, m, hpeek, hanswer⟩ := bind_eq_ok.mp htop
  obtain ⟨hfound, hsame⟩ := peek_eq_ok hpeek
  cases found with
  | none => cases hanswer
  | some v =>
    cases hanswer
    rw [hsame rfl]
    rintro hempty
    rw [hempty] at hfound
    cases hfound

theorem mirrored_linkEnds (target : LinkTarget) :
    Mirrored g i i (Prod.map (Value.rename g.objects.place) (Value.rename g.objects.place))
      (linkEnds target : Action Empty RuleError (Value × Value)) (linkEnds target) := by
  cases target with
  | next =>
    refine (mirrored_top _).bind fun child => (mirrored_peek 1).bind fun parent => ?_
    cases parent with
    | none => exact mirrored_fail _
    | some v => exact follows_pure (v, child)
  | top =>
    refine (mirrored_top _).bind fun child => (mirrored_peek 1).bind fun found => ?_
    cases found with
    | none => exact follows_pure (child, Value.null)
    | some v => exact follows_pure (child, v)
  | root =>
    refine ⟨fun s b h => (((mirrored_top _).together s b h).and_meets (meets_top _ s)).bind
      fun child s' b' hnew => ?_⟩
    obtain ⟨h, hstack⟩ := hnew
    obtain ⟨root, hroot⟩ := Option.isSome_iff_exists.mp (h.rooted hstack)
    have hroot' : b'.root = some (root.rename g.objects.place) := by
      rw [h.root, hroot]
      rfl
    dsimp only
    rw [get_bind_run, get_bind_run, hroot, hroot']
    exact .ok h

theorem mirrored_makeLink (target : LinkTarget) (method : String) (type : Option ScalarType) :
    Mirrored g i i id (makeLink target method type : Action Empty RuleError Unit)
      (makeLink target method type) :=
  (mirrored_linkEnds target).bind fun ends => Follows.of_get fun _ _ _ =>
    (mirrored_note ..).bind fun _ => (mirrored_invoke ends.1 method [ends.2] _).discard

theorem mirrored_startCapture (fragment : Bool) (uri name : String) (attrs : Attributes) :
    Mirrored g i i id (startCapture fragment uri name attrs : Action Empty RuleError Unit)
      (startCapture fragment uri name attrs) :=
  follows_modify fun _ _ h => { h with
    outline := congrArg (fun o : Outline => { o with
      capture := some { root := if fragment then .fragment [] else .element uri name attrs [] } })
      h.outline }

theorem mirrored_openFrame (size : Nat) :
    Mirrored g i i id (openFrame size : Action Empty RuleError Unit) (openFrame size) := by
  unfold openFrame
  split
  · refine follows_modify fun s b h => ?_
    have hframe := h.pushFrame (List.replicate size .null)
    rwa [List.map_replicate] at hframe
  · exact follows_crash

/-! ### Decorations -/

theorem mirrored_decorateChildren (config : NestedConfig) :
    Mirrored g i (i.up 1) id (decorateChildren config : Action Empty RuleError Unit)
      (decorateChildren config) := by
  refine follows_modify fun s b h => { h with matcher := ?_ }
  change Dressed _ _ (.decorated s.matcher (some (s.path ++ "/").toList) _)
    (.decorated b.matcher (some (b.path ++ "/").toList) _)
  rw [h.path]
  exact h.matcher.succ _ config s.nextRule b.nextRule

theorem mirrored_undecorateChildren :
    Mirrored g (i.up 1) i id (undecorateChildren : Action Empty RuleError Unit)
      undecorateChildren := by
  have hundress : Mirrored g (i.up 1) i id
      (modifyGet Binder.undecorate : Action Empty RuleError Bool)
      (modifyGet Binder.undecorate) := by
    refine follows_modifyGet fun s b h => ?_
    obtain ⟨first, second, hfirst, hsecond, hinside⟩ := h.matcher.undress
    unfold Binder.undecorate
    rw [hfirst, hsecond]
    exact ⟨rfl, { h with matcher := hinside }⟩
  refine hundress.bind fun done => ?_
  cases done with
  | true => exact follows_pure _
  | false => exact Follows.of_get fun _ _ _ => mirrored_note ..

/-! ### The three occasions -/

theorem mirrored_onStart (hg : g.setup.Closed) {rule : StandardRule}
    (hrule : rule.Closed g.setup.labels) (uri name : String) (attrs : Attributes) :
    Mirrored g i (i.up rule.decorates.toNat) id
      (rule.onStart uri name attrs : Action Empty RuleError Unit)
      (rule.onStart uri name attrs) := by
  cases rule with
  | objectCreate className attr => exact mirrored_create hg className attr attrs
  | factoryCreate source ignoreFailure number =>
    exact mirrored_produceObject hg hrule (createdFlags number) attrs
  | setProperties aliases ignoreMissing => exact mirrored_setFromAttributes ..
  | setProperty nameAttribute valueAttribute => exact mirrored_setNamedProperty ..
  | setNested config => exact mirrored_decorateChildren config
  | callMethod method arguments types offset number =>
    cases arguments with
    | frame size => exact mirrored_openFrame size
    | bodyText | nothing => exact follows_pure _
  | callParam index source number => exact mirrored_fillParameter ..
  | objectParam index v attr =>
    have hset : Mirrored g i i id (setParam index v : Action Empty RuleError Unit)
        (setParam index v) := by
      have hv := mirrored_setParam (g := g) (i := i) index v
      rwa [hrule g.objects.place] at hv
    cases attr with
    | none => exact hset
    | some wanted =>
      simp only [onStart]
      split
      · exact hset
      · exact follows_pure _
  | pathParam index =>
    refine Follows.of_get fun s b h => ?_
    rw [h.path]
    exact mirrored_setParam index (.text s.path)
  | link target method type atStart =>
    cases atStart with
    | true => exact mirrored_makeLink target method type
    | false => exact follows_pure _
  | nodeCreate fragment => exact mirrored_startCapture ..
  | textProperty property number => exact follows_pure _
  | nestedChild config => exact follows_pure _
  | storeText trim => exact follows_pure _

theorem mirrored_onBody (rule : StandardRule) (name text : String) :
    Mirrored g (i.up rule.decorates.toNat) i id
      (rule.onBody name text : Action Empty RuleError Unit) (rule.onBody name text) := by
  cases rule with
  | textProperty property number => exact mirrored_pushNamed _ (.text _)
  | setNested config => exact mirrored_undecorateChildren
  | nestedChild config => exact mirrored_setFromChild ..
  | callMethod method arguments types offset number =>
    cases arguments with
    | bodyText => exact mirrored_pushNamed _ (.text _)
    | nothing | frame size => exact follows_pure _
  | callParam index source number =>
    cases source with
    | body => exact mirrored_pushNamed _ (.text _)
    | attr name | stack depth => exact follows_pure _
  | storeText trim => exact mirrored_storeNonBlank ..
  | _ => exact follows_pure _

theorem mirrored_onClose (rule : StandardRule) (name : String) :
    Mirrored g i i id (rule.onClose name : Action Empty RuleError Unit) (rule.onClose name) := by
  cases rule with
  | objectCreate className attr => exact mirrored_pop.discard
  | factoryCreate source ignoreFailure number => exact mirrored_dropProduct ..
  | textProperty property number => exact mirrored_setFromText ..
  | callMethod method arguments types offset number => exact mirrored_callDeferred ..
  | callParam index source number =>
    cases source with
    | body => exact (mirrored_popNamed _).bind fun v => mirrored_setParam index v
    | attr name | stack depth => exact follows_pure _
  | link target method type atStart =>
    cases atStart with
    | true => exact follows_pure _
    | false => exact mirrored_makeLink target method type
  | nodeCreate fragment => exact mirrored_pop.discard
  | _ => exact follows_pure _

end StandardRule

end XmlBinding
