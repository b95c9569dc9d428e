import XmlBinding.Generic
import XmlBinding.Proofs.Blind

/-!
# Documents without their trace

Events call rules that do not read the trace, and what an element adds to the metrics is the same
whether or not its line is kept. So a text is read alike with a trace and without it, and the
mapping answers the same objects.
-/
namespace XmlBinding

open XmlBinding.Action

variable {κ : Type} {x : Extension κ}

/-- Rules of the user's own that do not read the trace. -/
def Extension.Blind (x : Extension κ) : Prop := ∀ rule cb, (x.fire rule cb).Blind

theorem Extension.blind_none : Extension.none.Blind := nofun

theorem RuleRef.blind_fire (hx : x.Blind) (ref : RuleRef κ) (cb : Callback) :
    (ref.fire x cb).Blind := by
  obtain ⟨id, rule | rule⟩ := ref
  · exact rule.blind_fire cb
  · exact hx rule cb

namespace Binder

variable (b : Binder κ)

theorem traceless_recordCall (cb : Callback) (ref : RuleRef κ) :
    (b.recordCall x cb ref).traceless = b.traceless.recordCall x cb ref := by
  have hcounted : ∀ c : Binder κ,
      { c with metrics := c.metrics.countCall cb.phase, calls := ⟨ref, cb⟩ :: c.calls }.traceless =
      { c.traceless with
        metrics := c.traceless.metrics.countCall cb.phase
        calls := ⟨ref, cb⟩ :: c.traceless.calls } := by
    intro c
    cases cb <;> rfl
  unfold recordCall
  dsimp only
  rw [hcounted]
  split
  · rfl
  · rw [traceless_note]
    rfl

theorem traceless_enter (name : String) : (b.enter name).traceless = b.traceless.enter name :=
  traceless_note ..

/-- The line of an element is all that is missing. -/
theorem traceless_noteRules (found : List (RuleRef κ)) :
    (b.noteRules x found).traceless = b.traceless.noteRules x found := rfl

theorem traceless_unmatch (outer : List (List (RuleRef κ))) :
    (b.unmatch outer).traceless = b.traceless.unmatch outer := traceless_note ..

theorem traceless_leave : b.leave.traceless = b.traceless.leave := by
  unfold leave
  rw [show b.traceless.outerPaths = b.outerPaths from rfl]
  cases b.outerPaths <;> rfl

theorem traceless_characters (text : String) :
    (b.characters text).traceless = b.traceless.characters text := by
  unfold characters
  rw [show b.traceless.capture = b.capture from rfl]
  cases b.capture <;> rfl

theorem traceless_endCapture : b.endCapture.traceless = b.traceless.endCapture := by
  unfold endCapture
  rw [show b.traceless.capture = b.capture from rfl]
  cases b.capture with
  | none => rfl
  | some c => exact traceless_push ..

theorem traceless_noteLeftover : b.noteLeftover.traceless = b.traceless.noteLeftover := by
  unfold noteLeftover
  rw [apply_ite traceless, traceless_note]
  rfl

theorem traceless_startDocument : b.startDocument.traceless = b.traceless.startDocument := by
  unfold startDocument
  rw [← traceless_note]
  rfl

theorem traceless_undecorateAll_go (m : Matcher (RuleRef κ)) :
    (undecorateAll.go b m).traceless = undecorateAll.go b.traceless m := by
  induction m generalizing b with
  | decorated inner place extra ih =>
    unfold undecorateAll.go
    rw [ih, traceless_note]
    rfl
  | _ => rfl

theorem traceless_abandon : b.abandon.traceless = b.traceless.abandon := by
  unfold abandon undecorateAll
  rw [show b.traceless.matcher = b.matcher from rfl, ← traceless_undecorateAll_go]
  rfl

end Binder

/-! ### Events -/

theorem blind_callRule (hx : x.Blind) (cb : Callback) (ref : RuleRef κ) :
    (callRule x cb ref).Blind := by
  have hrecord : (modify (Binder.recordCall x cb ref) : Action κ BindError PUnit).Blind :=
    blind_modify fun b => b.traceless_recordCall cb ref
  refine hrecord.bind fun _ => ((ref.blind_fire hx cb).attempt).bind fun r => ?_
  cases r with
  | ok a => exact blind_pure _
  | error cause =>
    exact blind_get_bind (fun _ => rfl) fun _ => (blind_note ..).bind fun _ => blind_fail _

theorem blind_callRules (hx : x.Blind) (cb : Callback) (refs : List (RuleRef κ)) :
    (callRules x cb refs).Blind := follows_forM fun ref => blind_callRule hx cb ref

theorem blind_openElement (hx : x.Blind) (uri name : String) (attrs : Attributes) :
    (openElement x uri name attrs).Blind := by
  have henter : (modify (·.enter name) : Action κ BindError PUnit).Blind :=
    blind_modify fun b => b.traceless_enter name
  refine henter.bind fun _ => follows_get_bind fun s b hsb => ?_
  subst hsb
  rw [show s.traceless.matcher.rulesFor? uri s.traceless.path.toList name attrs =
    s.matcher.rulesFor? uri s.path.toList name attrs from rfl]
  cases s.matcher.rulesFor? uri s.path.toList name attrs with
  | none => exact .crash
  | some found => exact (blind_callRules hx _ found).together _ _ (s.traceless_noteRules found).symm

theorem blind_startElement (hx : x.Blind) (uri localName qualifiedName : String)
    (attrs : Attributes) : (startElement x uri localName qualifiedName attrs).Blind := by
  refine follows_get_bind fun s b hsb => ?_
  subst hsb
  rw [show s.traceless.capture = s.capture from rfl]
  cases s.capture with
  | some c => exact .ok rfl
  | none => exact (blind_openElement hx ..).together _ _ rfl

theorem blind_closeElement (hx : x.Blind) (uri name : String) :
    (closeElement x uri name).Blind := by
  refine follows_get_bind fun s b hsb => ?_
  subst hsb
  rw [show s.traceless.matched = s.matched from rfl]
  cases s.matched with
  | nil => exact .error rfl
  | cons found outer =>
    have hresume : (modify (·.resumeText) : Action κ BindError PUnit).Blind :=
      blind_modify fun _ => rfl
    have hcalls (text : String) : (do
        callRules x (.body uri name text) found
        modify (·.resumeText)
        callRules x (.close uri name) found.reverse
        modify (·.leave) : Action κ BindError Unit).Blind :=
      (blind_callRules hx _ found).bind fun _ => hresume.bind fun _ =>
        (blind_callRules hx _ _).bind fun _ => blind_modify Binder.traceless_leave
    have hunmatch := s.traceless_unmatch outer
    dsimp only
    rw [← hunmatch]
    exact (hcalls _).together { s.unmatch outer with text := "" } _ rfl

theorem blind_endElement (hx : x.Blind) (uri localName qualifiedName : String) :
    (endElement x uri localName qualifiedName).Blind := by
  refine follows_get_bind fun s b hsb => ?_
  subst hsb
  rw [show s.traceless.capture = s.capture from rfl, ← s.traceless_endCapture]
  cases s.capture.bind (·.close?) with
  | some c => exact .ok rfl
  | none => exact (blind_closeElement hx ..).together s.endCapture _ rfl

theorem blind_endDocument (hx : x.Blind) : (endDocument x).Blind := by
  refine (blind_modify Binder.traceless_noteLeftover).bind fun _ =>
    blind_get_bind (fun _ => rfl) fun b => ?_
  refine (blind_callRules hx .finish _).attempt.bind fun result => ?_
  refine Blind.bind (blind_modify fun c => ?_) fun _ => blind_lift result
  rw [← c.traceless_note]
  rfl

/-! ### Documents -/

namespace Document

variable (aware : Bool) (here : Position)

theorem blind_resolveTag (name : String) (attrs : List (String × String)) :
    (resolveTag aware here name attrs : Action κ BindError (OpenElement × Attributes)).Blind := by
  unfold resolveTag
  split
  · have hbind : ∀ (declared : List (String × String)) (b : Binder κ),
        (declared.foldl (fun b d => b.bindName d.1 d.2) b).traceless =
          declared.foldl (fun b d => b.bindName d.1 d.2) b.traceless := by
      intro declared
      induction declared with
      | nil => exact fun _ => rfl
      | cons d rest ih =>
        intro b
        rw [List.foldl_cons, List.foldl_cons, ih, b.traceless_bindName]
    refine (blind_modify (hbind _)).bind fun _ => blind_get_bind (fun _ => rfl) fun b => ?_
    exact (blind_lift _).bind fun _ => (blind_lift _).bind fun _ => blind_pure _
  · exact blind_pure _

theorem blind_start (hx : x.Blind) (name : String) (attrs : List (String × String))
    (opened : List OpenElement) : (start x aware here name attrs opened).Blind :=
  (blind_resolveTag aware here name attrs).bind fun _ =>
    (blind_startElement hx ..).bind fun _ => blind_pure _

theorem blind_close (hx : x.Blind) (opened : List OpenElement) : (close x here opened).Blind := by
  unfold close
  cases opened with
  | nil => exact blind_lift _
  | cons element outer =>
    have hunbind : ∀ (labels : List String) (b : Binder κ),
        (labels.foldl Binder.unbindName b).traceless =
          labels.foldl Binder.unbindName b.traceless := by
      intro labels
      induction labels with
      | nil => exact fun _ => rfl
      | cons label rest ih =>
        intro b
        rw [List.foldl_cons, List.foldl_cons, ih, b.traceless_unbindName]
    exact (blind_endElement hx ..).bind fun _ =>
      (blind_modify (hunbind _)).bind fun _ => blind_pure _

theorem blind_handle (hx : x.Blind) (opened : List OpenElement) (token : Markup.Token) :
    (handle x aware here opened token).Blind := by
  have htext (content : String) : (do
      modify (·.characters content)
      return opened : Action κ BindError (List OpenElement)).Blind :=
    (blind_modify fun b => b.traceless_characters content).bind fun _ => blind_pure _
  unfold handle
  cases token with
  | start name attrs => exact blind_start aware here hx name attrs opened
  | empty name attrs =>
    exact (blind_start aware here hx name attrs opened).bind fun _ => blind_close here hx _
  | close => exact blind_close here hx opened
  | text content => exact htext content
  | reference name =>
    dsimp only
    cases Markup.textReference? name.toList with
    | some c => exact htext _
    | none => exact blind_lift _
  | skipped | finish => exact blind_pure _
  | badTag | broken => exact blind_lift _

theorem blind_handleAll (hx : x.Blind) (tokens : List (Nat × Markup.Token)) (cursor : Cursor)
    (opened : List OpenElement) : (handleAll x aware cursor opened tokens).Blind := by
  induction tokens generalizing cursor opened with
  | nil => exact blind_pure _
  | cons entry rest ih =>
    obtain ⟨offset, token⟩ := entry
    unfold handleAll
    dsimp only
    have hrest : (do
        handleAll x aware (cursor.seek offset)
          (← handle x aware ((cursor.seek offset).positionOf offset) opened token) rest :
        Action κ BindError (List OpenElement)).Blind :=
      (blind_handle aware _ hx opened token).bind fun _ => ih _ _
    split
    · exact hrest
    · exact Blind.bind (blind_modify fun _ => by rfl) fun _ => hrest

theorem blind_run (hx : x.Blind) (text : List Char) : (run x text).Blind := by
  have hstart : (modify fun b =>
      { b with position := some (Position.ofOffset text 0) }.startDocument :
      Action κ BindError PUnit).Blind :=
    blind_modify fun b => Binder.traceless_startDocument _
  refine blind_get_bind (fun _ => rfl) fun b => hstart.bind fun _ =>
    (blind_handleAll _ hx _ _ _).bind fun opened => ?_
  cases opened with
  | nil => exact blind_endDocument hx
  | cons element outer => exact blind_lift _

end Document

/-- A text is read alike with a trace and without it. -/
theorem blind_parse (hx : x.Blind) (text : String) : (parse x text).Blind := by
  refine (Document.blind_run hx text.toList).attempt.bind fun r => ?_
  cases r with
  | ok a => exact blind_get_bind (fun _ => rfl) fun _ => blind_pure _
  | error cause => exact (blind_modify Binder.traceless_abandon).bind fun _ => blind_fail _

/-! ### The mapping -/

theorem blind_addRule (x : Extension κ) (pattern : String) (ref : RuleRef κ) :
    (addRule x pattern ref).Blind := by
  refine (blind_note ..).bind fun _ => follows_get_bind fun s b hsb => ?_
  subst hsb
  rw [show s.traceless.matcher = s.matcher from rfl]
  cases s.matcher.add pattern ref with
  | ok matcher => exact .ok rfl
  | error cause => exact .error rfl

namespace Generic

def Mapping.traceless (m : Mapping) : Mapping := { m with metrics := m.metrics.traceless }

theorem blind_install (x : Extension κ) (trim : Bool) : (install x trim).Blind := by
  have hset : (modify (·.setMatcher (.textual { dialect := .glob })) :
      Action κ BindError PUnit).Blind := blind_modify fun _ => rfl
  refine hset.bind fun _ => follows_forM fun rule => ?_
  exact (blind_modifyGet fun _ => rfl).bind fun ref => blind_addRule x "*" ref

theorem blind_mapDocument (text : String) : (mapDocument text).Blind := by
  refine blind_get_bind (fun _ => rfl) fun b => (blind_install .none _).bind fun _ =>
    (blind_modifyGet fun b => ?_).bind fun document => ?_
  · exact congrArg (Prod.mk _) (Binder.traceless_push
      { b with heap := (b.heap.alloc (.dynamic { typeName := "#document" })).2 } _).symm
  · exact (blind_parse Extension.blind_none text).discard.bind fun _ =>
      blind_get_bind (fun _ => rfl) fun _ => blind_pure _

/-- **The trace is only written.** A run that collects no trace fails with the same error as one
that does, or it is mapped to the same objects with the same counts. -/
theorem run_eq_traceless (o : Options) (text : String) :
    run { o with collectTrace := false } text = (run o text).map Mapping.traceless := by
  have htogether := (blind_mapDocument text).together { options := o }
    { options := { o with collectTrace := false } } rfl
  unfold run
  revert htogether
  generalize mapDocument text { options := o } = r,
    mapDocument text { options := { o with collectTrace := false } } = r'
  rintro (rfl | _ | _) <;> rfl

/-- Whether a trace is wanted makes no difference to what a text is mapped to. -/
theorem run_traced {o : Options} {text : String} {m : Mapping} (h : run o text = .ok m) :
    ∃ m', run { o with collectTrace := true } text = .ok m' ∧ m'.traceless = m.traceless := by
  have hsame := run_eq_traceless { o with collectTrace := true } text
  rw [run_eq_traceless o, h] at hsame
  cases htraced : run { o with collectTrace := true } text with
  | error halt =>
    rw [htraced] at hsame
    cases hsame
  | ok m' =>
    rw [htraced] at hsame
    exact ⟨m', rfl, (Except.ok.inj hsame).symm⟩

end Generic

end XmlBinding
