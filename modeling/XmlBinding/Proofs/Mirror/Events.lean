import XmlBinding.Proofs.Mirror.Rules

/-!
# Events and their mirror images

The events of a document call rules on both sides, the same ones with the same arguments. A start
tag finds the same rules but for the identities of those that decorations bring, and its end tag
finds them again, so as many decorations as the open elements have put up are there at any moment.
-/
namespace XmlBinding

/-- Apply a function to the first text, if there is one. -/
def onFirst (f : String → String) : List String → List String
  | [] => []
  | text :: rest => f text :: rest

theorem dropLast_onFirst (f : String → String) (text : String) (outer : List String) :
    (f text :: outer).dropLast = onFirst f (text :: outer).dropLast := by
  cases outer <;> rfl

namespace RuleRef

variable {ref ref' : RuleRef Empty}

theorem name_anonymous (ref : RuleRef Empty) : ref.anonymous.name .none = ref.name .none := by
  unfold name
  rw [rule_anonymous]

theorem name_eq (h : ref'.anonymous = ref.anonymous) : ref'.name .none = ref.name .none := by
  unfold name
  rw [rule_eq h]

theorem standard_eq (h : ref'.anonymous = ref.anonymous) : ref'.standard = ref.standard := by
  unfold standard
  rw [rule_eq h]

end RuleRef

namespace Mirrors

variable {g : Ground} {i : Stage} {s b : Binder Empty}

theorem capture (h : Mirrors g i s b) : b.capture = s.capture := congrArg Outline.capture h.outline

theorem matched (h : Mirrors g i s b) :
    b.matched.map (List.map RuleRef.anonymous) = s.matched.map (List.map RuleRef.anonymous) :=
  congrArg Outline.matched h.outline

theorem pending (h : Mirrors g i s b) :
    (b.text :: b.outerTexts).dropLast = (s.text :: s.outerTexts).dropLast :=
  congrArg Outline.pending h.outline

/-- Inside an element both have the same text. -/
theorem text (h : Mirrors g i s b) (hs : s.outerTexts ≠ []) : b.text = s.text := by
  have hpending := h.pending
  cases hb : b.outerTexts with
  | nil =>
    cases hs' : s.outerTexts with
    | nil => exact absurd hs' hs
    | cons t rest =>
      rw [hb, hs'] at hpending
      cases hpending
  | cons t rest =>
    cases hs' : s.outerTexts with
    | nil => exact absurd hs' hs
    | cons t' rest' =>
      rw [hb, hs'] at hpending
      exact (List.cons.inj hpending).1

theorem recordCall (h : Mirrors g i s b) (cb : Callback) {ref ref' : RuleRef Empty}
    (hsame : ref'.anonymous = ref.anonymous) :
    Mirrors g i (s.recordCall .none cb ref) (b.recordCall .none cb ref') := by
  rw [s.recordCall_eq, b.recordCall_eq]
  have hcall : Call.anonymous ⟨ref', cb⟩ = Call.anonymous ⟨ref, cb⟩ :=
    congrArg (Call.mk · cb) hsame
  refine { h with outline := ?_ }
  change { b.outline with
      metrics := b.outline.metrics.countCall cb.phase
      calls := Call.anonymous ⟨ref', cb⟩ :: b.outline.calls } =
    { s.outline with
      metrics := s.outline.metrics.countCall cb.phase
      calls := Call.anonymous ⟨ref, cb⟩ :: s.outline.calls }
  rw [hcall, h.outline]

/-- A failure is reported in the same words. -/
theorem report_eq (h : Mirrors g i s b) (rule : String) (phase : Phase) (cause : RuleError) :
    b.report rule phase cause = s.report rule phase cause := by
  have hposition : b.position = s.position := congrArg Outline.position h.outline
  unfold Binder.report
  rw [h.path, hposition]

end Mirrors

namespace Action

variable {g : Ground} {i i' : Stage}

/-- A call of a rule mirrors that of another rule that is the same but for its identity. -/
theorem mirrored_callRule {cb : Callback} {ref ref' : RuleRef Empty}
    (hsame : ref'.anonymous = ref.anonymous)
    (hfire : Mirrored g i i' id (ref.standard.fire cb : Action Empty RuleError Unit)
      (ref.standard.fire cb)) :
    Mirrored g i i' id (callRule .none cb ref) (callRule .none cb ref') := by
  unfold callRule
  rw [ref.fire_standard, ref'.fire_standard, RuleRef.standard_eq hsame, RuleRef.name_eq hsame]
  have hrecord : Mirrored g i i id
      (modify (Binder.recordCall .none cb ref) : Action Empty BindError PUnit)
      (modify (Binder.recordCall .none cb ref')) :=
    follows_modify fun _ _ h => h.recordCall cb hsame
  refine hrecord.bind fun _ => ⟨fun s b h => ?_⟩
  refine (hfire.together s b h).attempt.bind fun r s' b' hr => ?_
  cases r with
  | ok a => exact .ok hr
  | error cause =>
    obtain ⟨j, hr⟩ := hr
    refine (Follows.of_get fun s b h => ?_).together s' b' hr
    rw [h.report_eq]
    exact (mirrored_note (i := j) ..).bind fun _ => mirrored_fail _

/-- Calls of rules that are the same but for their identities, each from a stage to the next. -/
theorem mirrored_callRules {cb : Callback} (stage : List (RuleRef Empty) → Stage)
    (hstep : ∀ ref rest, Mirrored g (stage (ref :: rest)) (stage rest) id
      (ref.standard.fire cb : Action Empty RuleError Unit) (ref.standard.fire cb))
    {refs refs' : List (RuleRef Empty)}
    (hsame : refs'.map RuleRef.anonymous = refs.map RuleRef.anonymous) :
    Mirrored g (stage refs) (stage []) id (callRules .none cb refs) (callRules .none cb refs') := by
  induction refs generalizing refs' with
  | nil =>
    obtain rfl : refs' = [] := List.map_eq_nil_iff.mp hsame
    exact follows_pure _
  | cons ref rest ih =>
    obtain ⟨ref', rest', rfl, href, hrest⟩ := List.map_eq_cons_iff.mp hsame
    exact (mirrored_callRule href (hstep ref rest)).bind fun _ => ih hrest

/-- How many of the rules decorate the matcher. -/
def decorators (refs : List (RuleRef Empty)) : Nat := refs.countP (·.standard.decorates)

theorem decorators_cons (ref : RuleRef Empty) (rest : List (RuleRef Empty)) :
    decorators (ref :: rest) = ref.standard.decorates.toNat + decorators rest := by
  unfold decorators
  rw [List.countP_cons, Nat.add_comm]
  cases ref.standard.decorates <;> rfl

variable {refs refs' : List (RuleRef Empty)}

/-- The starts put up the decorations of their rules. -/
theorem mirrored_starts (hg : g.setup.Closed)
    (hrefs : ∀ ref ∈ refs, ref.standard.Closed g.setup.labels)
    (hsame : refs'.map RuleRef.anonymous = refs.map RuleRef.anonymous) (uri name : String)
    (attrs : Attributes) :
    Mirrored g i (i.up (decorators refs)) id (callRules .none (.start uri name attrs) refs)
      (callRules .none (.start uri name attrs) refs') := by
  induction refs generalizing i refs' with
  | nil =>
    obtain rfl : refs' = [] := List.map_eq_nil_iff.mp hsame
    exact follows_pure _
  | cons ref rest ih =>
    obtain ⟨ref', rest', rfl, href, hrest⟩ := List.map_eq_cons_iff.mp hsame
    obtain ⟨hclosed, hothers⟩ := List.forall_mem_cons.mp hrefs
    rw [decorators_cons, ← Stage.up_up]
    exact (mirrored_callRule href (StandardRule.mirrored_onStart hg hclosed uri name attrs)).bind
      fun _ => ih hothers hrest

/-- The bodies take them down again. -/
theorem mirrored_bodies (hsame : refs'.map RuleRef.anonymous = refs.map RuleRef.anonymous)
    (uri name text : String) :
    Mirrored g (i.up (decorators refs)) i id (callRules .none (.body uri name text) refs)
      (callRules .none (.body uri name text) refs') := by
  refine mirrored_callRules (i.up <| decorators ·) (fun ref rest => ?_) hsame
  rw [decorators_cons, Nat.add_comm, ← Stage.up_up]
  exact ref.standard.mirrored_onBody name text

theorem mirrored_closes (hsame : refs'.map RuleRef.anonymous = refs.map RuleRef.anonymous)
    (uri name : String) :
    Mirrored g i i id (callRules .none (.close uri name) refs)
      (callRules .none (.close uri name) refs') :=
  mirrored_callRules (fun _ => i) (fun ref _ => ref.standard.mirrored_onClose name) hsame

end Action

/-! ### Found rules -/

/-- The rules that a matcher finds refer to no object that was there before. -/
def Matcher.Closed (labels : Labels) (m : Matcher (RuleRef Empty)) : Prop :=
  ∀ uri path name attrs found, m.rulesFor? uri path name attrs = some found →
    ∀ ref ∈ found, ref.standard.Closed labels

namespace Dressed

variable {m first second : Matcher (RuleRef Empty)} {n : Nat}

theorem rulesFor?_eq (h : Dressed m n first second) (uri : String) (path : List Char)
    (name : String) (attrs : Attributes) :
    (second.rulesFor? uri path name attrs).map (List.map RuleRef.anonymous) =
      (first.rulesFor? uri path name attrs).map (List.map RuleRef.anonymous) := by
  induction h with
  | zero => rfl
  | @succ n first second h place config id id' ih =>
    rw [Matcher.rulesFor?, Matcher.rulesFor?]
    cases hfirst : first.rulesFor? uri path name attrs with
    | none =>
      rw [hfirst] at ih
      rw [Option.map_eq_none_iff.mp ih]
      rfl
    | some found =>
      rw [hfirst] at ih
      obtain ⟨found', hsecond, hsame⟩ := Option.map_eq_some_iff.mp ih
      rw [hsecond]
      simp only [Option.map_some]
      split
      · rw [List.map_append, List.map_append, hsame]
        rfl
      · rw [hsame]

theorem closed (h : Dressed m n first second) {labels : Labels} (hm : m.Closed labels) :
    first.Closed labels := by
  induction h with
  | zero => exact hm
  | succ h place config id id' ih =>
    intro uri path name attrs found hfound
    rw [Matcher.rulesFor?, Option.map_eq_some_iff] at hfound
    obtain ⟨inside, hinside, rfl⟩ := hfound
    have hrules := ih uri path name attrs inside hinside
    split
    · intro ref href
      rcases List.mem_append.mp href with hin | hextra
      · exact hrules ref hin
      · obtain rfl := List.mem_singleton.mp hextra
        exact trivial
    · exact hrules

theorem rules_eq (h : Dressed m n first second) :
    first.rules = m.rules ∧ second.rules = m.rules := by
  induction h with
  | zero => exact ⟨rfl, rfl⟩
  | succ h place config id id' ih => exact ih

end Dressed

/-! ### Tags -/

namespace Binder

variable {κ : Type} (b : Binder κ)

theorem enter_eq (name : String) : b.enter name =
    { b with
      path := if b.path.isEmpty then name else b.path ++ "/" ++ name
      outerPaths := b.path :: b.outerPaths
      text := ""
      outerTexts := b.text :: b.outerTexts
      journal := (b.enter name).journal } := note_eq ..

theorem endCapture_eq_push {c : Capture} (h : b.capture = some c) :
    b.endCapture = { b with capture := none }.push (.node c.finish) := by
  unfold endCapture
  rw [h]

end Binder

namespace Mirrors

variable {g : Ground} {i : Stage} {s b : Binder Empty}

theorem enter (h : Mirrors g i s b) (name : String) :
    Mirrors g i (s.enter name) (b.enter name) := by
  rw [s.enter_eq, b.enter_eq]
  refine { h with outline := ?_ }
  have enterOutline : ∀ c : Binder Empty, { c with
      path := if c.path.isEmpty then name else c.path ++ "/" ++ name
      outerPaths := c.path :: c.outerPaths
      text := ""
      outerTexts := c.text :: c.outerTexts }.outline =
    { c.outline with
      path := if c.outline.path.isEmpty then name else c.outline.path ++ "/" ++ name
      outerPaths := c.outline.path :: c.outline.outerPaths
      pending := "" :: c.outline.pending } := fun _ => rfl
  exact (enterOutline b).trans (h.outline ▸ (enterOutline s).symm)

theorem rulesAt?_eq (h : Mirrors g i s b) (tag : StartTag) :
    (b.rulesAt? tag).map (List.map RuleRef.anonymous) =
      (s.rulesAt? tag).map (List.map RuleRef.anonymous) := by
  unfold Binder.rulesAt?
  rw [(h.enter tag.name).path]
  exact h.matcher.rulesFor?_eq ..

theorem depth (h : Mirrors g i s b) : b.depth = s.depth := by
  have hmatched := congrArg List.length h.matched
  rwa [List.length_map, List.length_map] at hmatched

theorem noteRules (h : Mirrors g i s b) {found found' : List (RuleRef Empty)}
    (hsame : found'.map RuleRef.anonymous = found.map RuleRef.anonymous) :
    Mirrors g i (s.noteRules .none found) (b.noteRules .none found') := by
  have hnames : found'.map (RuleRef.name .none) = found.map (RuleRef.name .none) := by
    have hname : ∀ refs : List (RuleRef Empty),
        refs.map (RuleRef.name .none) = (refs.map RuleRef.anonymous).map (RuleRef.name .none) := by
      intro refs
      rw [List.map_map]
      exact List.map_congr_left fun ref _ => ref.name_anonymous.symm
    rw [hname found', hname found, hsame]
  have hempty : found'.isEmpty = found.isEmpty := by
    have hlength := congrArg List.isEmpty hsame
    rwa [List.isEmpty_map, List.isEmpty_map] at hlength
  have hoptions : b.options = s.options := congrArg Setup.options h.setup_eq
  refine { h with outline := ?_ }
  change { b.outline with
      matched := found'.map RuleRef.anonymous :: b.outline.matched
      metrics := b.outline.metrics.record (b.depth + 1) (!found'.isEmpty)
        (if b.options.collectTrace then
          some ⟨b.outline.path, b.depth + 1, found'.map (RuleRef.name .none)⟩ else none) } =
    { s.outline with
      matched := found.map RuleRef.anonymous :: s.outline.matched
      metrics := s.outline.metrics.record (s.depth + 1) (!found.isEmpty)
        (if s.options.collectTrace then
          some ⟨s.outline.path, s.depth + 1, found.map (RuleRef.name .none)⟩ else none) }
  rw [h.outline, h.depth, hoptions, hnames, hempty, hsame]

/-- Both find the same rules for an element, and are ready to call them. -/
theorem opened (h : Mirrors g i s b) (tag : StartTag) {found found' : List (RuleRef Empty)}
    (hsame : found'.map RuleRef.anonymous = found.map RuleRef.anonymous) :
    Mirrors g i (s.opened .none tag found) (b.opened .none tag found') :=
  (h.enter tag.name).noteRules hsame

theorem expandAttributes (h : Mirrors g i s b) (attrs : Attributes) :
    b.expandAttributes attrs = s.expandAttributes attrs := by
  unfold Binder.expandAttributes
  rw [show b.substitutor = s.substitutor from congrArg Setup.substitutor h.setup_eq]

theorem expandText (h : Mirrors g i s b) (text : String) :
    b.expandText text = s.expandText text := by
  unfold Binder.expandText
  rw [show b.substitutor = s.substitutor from congrArg Setup.substitutor h.setup_eq]

theorem setCapture (h : Mirrors g i s b) (capture : Option Capture) :
    Mirrors g i { s with capture } { b with capture } :=
  { h with outline := congrArg (fun o : Outline => { o with capture }) h.outline }

theorem mapText (h : Mirrors g i s b) (f : String → String) :
    Mirrors g i { s with text := f s.text } { b with text := f b.text } := by
  refine { h with outline := ?_ }
  have mapOutline : ∀ c : Binder Empty, { c with text := f c.text }.outline =
      { c.outline with pending := onFirst f c.outline.pending } := fun c =>
    congrArg (fun pending => { c.outline with pending }) (dropLast_onFirst f c.text c.outerTexts)
  rw [mapOutline, mapOutline, h.outline]

theorem characters (h : Mirrors g i s b) (content : String) :
    Mirrors g i (s.characters content) (b.characters content) := by
  cases hc : s.capture with
  | some c =>
    rw [characters_of_capturing content hc,
      characters_of_capturing content (h.capture.trans hc)]
    exact h.setCapture _
  | none =>
    rw [characters_of_not_capturing content hc,
      characters_of_not_capturing content (h.capture.trans hc)]
    exact h.mapText (· ++ content)

theorem endCapture (h : Mirrors g i s b) : Mirrors g i s.endCapture b.endCapture := by
  cases hc : s.capture with
  | none =>
    unfold Binder.endCapture
    rw [h.capture, hc]
    exact h
  | some c =>
    rw [s.endCapture_eq_push hc, b.endCapture_eq_push (h.capture.trans hc)]
    exact (h.setCapture none).push (.node c.finish)

theorem unmatch (h : Mirrors g i s b) {outer outer' : List (List (RuleRef Empty))}
    (hsame : outer'.map (List.map RuleRef.anonymous) = outer.map (List.map RuleRef.anonymous)) :
    Mirrors g i (s.unmatch outer) (b.unmatch outer') := by
  have hunmatched : Mirrors g i { s with matched := outer } { b with matched := outer' } := by
    refine { h with outline := ?_ }
    change { b.outline with matched := outer'.map (List.map RuleRef.anonymous) } =
      { s.outline with matched := outer.map (List.map RuleRef.anonymous) }
    rw [h.outline, hsame]
  exact hunmatched.note ..

theorem closing (h : Mirrors g i s b) {outer outer' : List (List (RuleRef Empty))}
    (hsame : outer'.map (List.map RuleRef.anonymous) = outer.map (List.map RuleRef.anonymous)) :
    Mirrors g i (s.closing outer) (b.closing outer') :=
  (h.endCapture.unmatch hsame).mapText fun _ => ""

theorem resumeText (h : Mirrors g i s b) : Mirrors g i s.resumeText b.resumeText := by
  refine { h with outline := ?_ }
  have resumeOutline : ∀ c : Binder Empty, c.resumeText.outline =
      { c.outline with pending := c.outline.pending.tail } := by
    intro c
    refine congrArg (fun pending => { c.outline with pending }) ?_
    change (c.outerTexts.headD "" :: c.outerTexts.tail).dropLast =
      (c.text :: c.outerTexts).dropLast.tail
    cases c.outerTexts <;> rfl
  rw [resumeOutline, resumeOutline, h.outline]

theorem leave (h : Mirrors g i s b) : Mirrors g i s.leave b.leave := by
  have houter : b.outerPaths = s.outerPaths := congrArg Outline.outerPaths h.outline
  unfold Binder.leave
  rw [houter]
  cases s.outerPaths with
  | nil => exact h
  | cons path outerPaths =>
    exact { h with outline := congrArg (fun o : Outline => { o with path, outerPaths }) h.outline }

theorem setPosition (h : Mirrors g i s b) (position : Option Position) :
    Mirrors g i { s with position } { b with position } :=
  { h with outline := congrArg (fun o : Outline => { o with position }) h.outline }

end Mirrors

namespace Action

/-- The end tag takes down the decorations that the start tag has put up. -/
theorem mirrored_closeRules {g : Ground} {i : Stage} {refs refs' : List (RuleRef Empty)}
    (hsame : refs'.map RuleRef.anonymous = refs.map RuleRef.anonymous) (tag : EndTag)
    (text : String) :
    Mirrored g (i.up (decorators refs)) i id (closeRules .none tag refs text)
      (closeRules .none tag refs' text) := by
  refine (mirrored_bodies hsame ..).bind fun _ =>
    (follows_modify fun _ _ h => h.resumeText).bind fun _ => ?_
  refine (mirrored_closes ?_ ..).bind fun _ => follows_modify fun _ _ h => h.leave
  rw [List.map_reverse, List.map_reverse, hsame]

end Action

end XmlBinding
