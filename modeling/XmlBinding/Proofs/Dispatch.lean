import XmlBinding.Proofs.Content
import XmlBinding.Proofs.Progress

/-!
# The calls on record

Which calls of rules the events of a document put on the record, and in which order. The list of
rules that the matcher answers at a start tag serves that element to its end: for the starts in its
order, then for the bodies in its order, then for the ends in the opposite order. Between the starts
and the bodies stands whatever the content makes. All is said of any binder at any moment between
two events, so the rules may register others, work on the stacks and change the matcher meanwhile.
-/
namespace XmlBinding

variable {κ : Type} {x : Extension κ}

/-- Progress with calls of some rules, one after the other. -/
def Progress.called (p : Progress κ) (cb : Callback) (refs : List (RuleRef κ)) : Progress κ :=
  { p with
    metrics := refs.foldl (fun m _ => m.countCall cb.phase) p.metrics
    calls := (refs.map (⟨·, cb⟩)).reverse ++ p.calls }

theorem Progress.called_cons (p : Progress κ) (cb : Callback) (ref : RuleRef κ)
    (rest : List (RuleRef κ)) : p.called cb (ref :: rest) = (p.called cb [ref]).called cb rest := by
  simp [called]

/-- How a run can end early. Either the call that was made last failed and is reported, or that call
or the question for the rules of an element had no answer at all. -/
def EndsEarly (x : Extension κ) : Halt BindError → Binder κ → Prop
  | .error e, b => ∃ call rest s s' cause, b.calls = call :: rest ∧
      call.rule.fire x call.callback s = .error (.error cause) s' ∧
      e = s'.report (call.rule.name x) call.callback.phase cause
  | .crash, b => (∃ call rest s, b.calls = call :: rest ∧
      call.rule.fire x call.callback s = .error .crash b) ∨
      ∃ uri name attrs, b.matcher.rulesFor? uri b.path.toList name attrs = none

/-! ### Calls of rules -/

theorem Binder.calls_note (b : Binder κ) (level : Level) (channel : Channel) (text : String) :
    (b.note level channel text).calls = b.calls :=
  congrArg (·.1.calls) (b.course_note level channel text)

theorem Binder.course_recordCall (x : Extension κ) (cb : Callback) (ref : RuleRef κ)
    (b : Binder κ) : (b.recordCall x cb ref).course = (b.progress.called cb [ref], b.capture) := by
  unfold recordCall note
  split
  · rfl
  · split <;> rfl

theorem meets_callRule (hx : x.Quiet) (cb : Callback) (ref : RuleRef κ) (b : Binder κ) :
    (callRule x cb ref).Meets b (fun _ b' => b'.progress = b.progress.called cb [ref] ∧
      b'.capture.isSome = (b.capture.isSome || ref.startsCapture cb) ∧
      (Capture.Fresh b.capture → Capture.Fresh b'.capture)) (EndsEarly x) := by
  unfold callRule
  rw [Action.meets_bind, Action.meets_modify, Action.meets_bind, Action.meets_attempt]
  have hs := b.course_recordCall x cb ref
  generalize b.recordCall x cb ref = s at hs
  have hk := RuleRef.progress_fire hx ref cb
  cases hr : ref.fire x cb s with
  | ok a s' =>
    rw [Action.meets_of_ok hr]
    have hprogress : s'.progress = _ := (hk.of_ok hr).trans (congrArg Prod.fst hs)
    cases hc : ref.startsCapture cb with
    | false =>
      have same : s'.capture = b.capture :=
        congrArg Prod.snd (((RuleRef.course_fire hx ref cb hc).of_ok hr).trans hs)
      refine ⟨hprogress, ?_, fun hf => ?_⟩
      · rw [same, Bool.or_false]
      · rwa [same]
    | true =>
      obtain ⟨c, hc', hn⟩ := RuleRef.fire_startsCapture hc hr
      refine ⟨hprogress, ?_, fun _ own ho => ?_⟩
      · rw [hc', Bool.or_true]
        rfl
      · obtain rfl : c = own := Option.some.inj (hc'.symm.trans ho)
        exact hn
  | error halt s' =>
    rw [Action.meets_of_error hr]
    have hcalls : s'.calls = ⟨ref, cb⟩ :: b.calls := by
      have h := (hk.keepsAt s).trans (congrArg Prod.fst hs)
      rw [Action.after_of_error hr] at h
      exact congrArg Progress.calls h
    cases halt with
    | crash => exact .inl ⟨⟨ref, cb⟩, b.calls, s, hcalls, hr⟩
    | error cause =>
      exact ⟨⟨ref, cb⟩, b.calls, s, s', cause, (s'.calls_note ..).trans hcalls, hr, rfl⟩

/-- The rules of a list are called in its order. -/
theorem meets_callRules (hx : x.Quiet) (cb : Callback) (refs : List (RuleRef κ)) (b : Binder κ) :
    (callRules x cb refs).Meets b (fun _ b' => b'.progress = b.progress.called cb refs ∧
      b'.capture.isSome = (b.capture.isSome || refs.any (·.startsCapture cb)) ∧
      (Capture.Fresh b.capture → Capture.Fresh b'.capture)) (EndsEarly x) := by
  induction refs generalizing b with
  | nil => exact ⟨rfl, (Bool.or_false _).symm, id⟩
  | cons ref rest ih =>
    change (callRule x cb ref >>= fun _ => callRules x cb rest).Meets b _ _
    rw [Action.meets_bind]
    refine (meets_callRule hx cb ref b).mono (fun _ m hm => ?_) fun _ _ => id
    refine (ih m).mono (fun _ b' hb' => ⟨?_, ?_, hb'.2.2 ∘ hm.2.2⟩) fun _ _ => id
    · rw [hb'.1, hm.1, ← Progress.called_cons]
    · rw [hb'.2.1, hm.2.1, List.any_cons, Bool.or_assoc]

/-- Only a start can begin a capture. -/
theorem RuleRef.any_startsCapture (refs : List (RuleRef κ)) {cb : Callback}
    (h : cb.phase ≠ .start) :
    refs.any (·.startsCapture cb) = false := by
  rw [List.any_eq_false]
  rintro ⟨id, rule | rule⟩ -
  · cases cb <;> first | exact absurd rfl h | (cases rule <;> exact Bool.false_ne_true)
  · exact Bool.false_ne_true

/-! ### A start tag -/

namespace Binder

/-- The list of rules for an element that starts here. -/
def rulesAt? (b : Binder κ) (tag : StartTag) : Option (List (RuleRef κ)) :=
  b.matcher.rulesFor? tag.uri (b.enter tag.name).path.toList tag.name tag.attrs

/-- The binder between the question for the rules of an element and their calls. -/
def opened (x : Extension κ) (b : Binder κ) (tag : StartTag) (found : List (RuleRef κ)) :
    Binder κ :=
  (b.enter tag.name).noteRules x found

theorem matcher_note (b : Binder κ) (level : Level) (channel : Channel) (text : String) :
    (b.note level channel text).matcher = b.matcher := by
  unfold note
  split <;> rfl

theorem matcher_enter (b : Binder κ) (name : String) : (b.enter name).matcher = b.matcher :=
  matcher_note ..

theorem progress_enter (b : Binder κ) (name : String) : (b.enter name).progress =
    { b.progress with
      path := if b.path.isEmpty then name else b.path ++ "/" ++ name
      outerPaths := b.path :: b.outerPaths, text := "", outerTexts := b.text :: b.outerTexts } :=
  congrArg Prod.fst (course_note ..)

theorem progress_opened (b : Binder κ) (tag : StartTag) (found : List (RuleRef κ)) :
    (b.opened x tag found).progress =
      { b.progress with
        path := (b.enter tag.name).path, outerPaths := b.path :: b.outerPaths
        matched := found :: b.matched, text := "", outerTexts := b.text :: b.outerTexts
        metrics := (b.opened x tag found).metrics } := by
  have h := b.progress_enter tag.name
  have hm : (b.enter tag.name).matched = b.matched := congrArg Progress.matched h
  have hp : (b.enter tag.name).path = _ := congrArg Progress.path h
  change { (b.enter tag.name).progress with
    matched := found :: (b.enter tag.name).matched
    metrics := (b.opened x tag found).metrics } = _
  rw [hm, hp, h]

theorem capture_enter (b : Binder κ) (name : String) : (b.enter name).capture = b.capture :=
  congrArg Prod.snd (course_note ..)

theorem expandAttributes_opened (b : Binder κ) (tag : StartTag) (found : List (RuleRef κ))
    (attrs : Attributes) :
    (b.opened x tag found).expandAttributes attrs = b.expandAttributes attrs := by
  have h : (b.opened x tag found).substitutor = b.substitutor :=
    congrArg Progress.substitutor (b.progress_enter tag.name)
  unfold expandAttributes
  rw [h]

end Binder

theorem start_of_not_capturing (tag : StartTag) {b : Binder κ} (hb : b.capture = none) :
    deliver x (.start tag) b = openElement x tag.uri tag.name tag.attrs b := by
  change startElement x tag.uri tag.localName tag.qualifiedName tag.attrs b = _
  unfold startElement
  rw [Action.get_bind_run]
  simp only [hb]
  rfl

/-- Where the matcher has no answer, a start tag is the end of the run. -/
theorem start_eq_crash (tag : StartTag) {b : Binder κ} (hb : b.capture = none)
    (hf : b.rulesAt? tag = none) : deliver x (.start tag) b = .error .crash (b.enter tag.name) := by
  unfold Binder.rulesAt? at hf
  rw [← b.matcher_enter tag.name] at hf
  rw [start_of_not_capturing tag hb]
  unfold openElement
  rw [Action.modify_bind_run, Action.get_bind_run, hf]
  rfl

/-- A start tag opens its element and calls the rules that were found for it. -/
theorem start_eq_callRules (tag : StartTag) {b : Binder κ} {found : List (RuleRef κ)}
    (hb : b.capture = none) (hf : b.rulesAt? tag = some found) :
    deliver x (.start tag) b =
      callRules x (.start tag.uri tag.name (b.expandAttributes tag.attrs)) found
        (b.opened x tag found) := by
  rw [← Binder.expandAttributes_opened (x := x) b tag found]
  unfold Binder.rulesAt? at hf
  rw [← b.matcher_enter tag.name] at hf
  rw [start_of_not_capturing tag hb]
  unfold openElement
  rw [Action.modify_bind_run, Action.get_bind_run, hf]
  rfl

/-- A start tag asks for the rules of its element and calls them. -/
theorem meets_start (hx : x.Quiet) (tag : StartTag) (b : Binder κ) (hb : b.capture = none) :
    (deliver x (.start tag)).Meets b
      (fun _ b' => ∃ found, b.rulesAt? tag = some found ∧
        b'.progress = (b.opened x tag found).progress.called
          (.start tag.uri tag.name (b.expandAttributes tag.attrs)) found ∧
        Capture.Fresh b'.capture)
      (EndsEarly x) := by
  cases hf : b.rulesAt? tag with
  | none =>
    rw [Action.meets_of_error (start_eq_crash tag hb hf)]
    refine Or.inr ⟨tag.uri, tag.name, tag.attrs, ?_⟩
    rw [b.matcher_enter]
    exact hf
  | some found =>
    rw [Action.meets_congr (start_eq_callRules tag hb hf)]
    have ho : (b.opened x tag found).capture = none := (b.capture_enter tag.name).trans hb
    refine (meets_callRules hx _ found _).mono (fun _ b' h => ⟨found, rfl, h.1, h.2.2 ?_⟩)
      fun _ _ => id
    intro own hown
    rw [ho] at hown
    cases hown

/-! ### An end tag -/

namespace Progress

/-- The text of the element around goes on. -/
def resumeText (p : Progress κ) : Progress κ :=
  { p with text := p.outerTexts.headD "", outerTexts := p.outerTexts.tail }

/-- The name of the element leaves the path. -/
def leave (p : Progress κ) : Progress κ :=
  match p.outerPaths with
  | [] => p
  | path :: outerPaths => { p with path, outerPaths }

/-- Progress through an end tag: the bodies, the text around, the ends, the path around. -/
def closed (p : Progress κ) (tag : EndTag) (found : List (RuleRef κ))
    (outer : List (List (RuleRef κ))) (text : String) : Progress κ :=
  ((({ p with matched := outer, text := "" }.called (.body tag.uri tag.name text) found).resumeText
    ).called (.close tag.uri tag.name) found.reverse).leave

end Progress

theorem Binder.progress_leave (b : Binder κ) : b.leave.progress = b.progress.leave := by
  obtain ⟨matcher, stack, params, named, root, path, outerPaths⟩ := b
  cases outerPaths <;> rfl

theorem Binder.capture_leave (b : Binder κ) : b.leave.capture = b.capture := by
  unfold leave
  split <;> rfl

theorem Binder.endCapture_of_none {b : Binder κ} (h : b.capture = none) : b.endCapture = b := by
  unfold endCapture
  rw [h]

theorem Binder.course_endCapture (b : Binder κ) : b.endCapture.course = (b.progress, none) := by
  unfold endCapture
  cases hc : b.capture with
  | none =>
    change (b.progress, b.capture) = _
    rw [hc]
  | some c =>
    have h := (Action.course_push (ε := Empty) (.node c.finish)).keepsAt { b with capture := none }
    exact h

theorem Binder.course_unmatch (b : Binder κ) (outer : List (List (RuleRef κ))) :
    (b.unmatch outer).course = ({ b.progress with matched := outer }, b.capture) :=
  course_note ..

/-- The binder between an end tag and the calls of its rules. -/
def Binder.closing (b : Binder κ) (outer : List (List (RuleRef κ))) : Binder κ :=
  { b.endCapture.unmatch outer with text := "" }

theorem Binder.course_closing (b : Binder κ) (outer : List (List (RuleRef κ))) :
    (b.closing outer).course = ({ b.progress with matched := outer, text := "" }, none) := by
  have he := b.course_endCapture
  change ({ (b.endCapture.unmatch outer).course.1 with text := "" },
    (b.endCapture.unmatch outer).course.2) = _
  rw [course_unmatch]
  change ({ b.endCapture.course.1 with matched := outer, text := "" }, b.endCapture.course.2) = _
  rw [he]

/-- The run from the end tag of an element on: the bodies, the text around, the ends. -/
def closeRules (x : Extension κ) (tag : EndTag) (found : List (RuleRef κ)) (text : String) :
    Action κ BindError Unit := do
  callRules x (.body tag.uri tag.name text) found
  modify (·.resumeText)
  callRules x (.close tag.uri tag.name) found.reverse
  modify (·.leave)

/-- An end tag calls the rules that its start tag found. -/
theorem close_eq_closeRules (tag : EndTag) {b : Binder κ} {found : List (RuleRef κ)}
    {outer : List (List (RuleRef κ))} (hc : b.capture.bind (·.close?) = none)
    (hm : b.matched = found :: outer) :
    deliver x (.close tag) b = closeRules x tag found (b.expandText b.text) (b.closing outer) := by
  have he := b.course_endCapture
  have hmatched : b.endCapture.matched = found :: outer := (congrArg (·.1.matched) he).trans hm
  have hu := (b.endCapture.course_unmatch outer).trans (congrArg
    (fun c : Progress κ × Option Capture => ({ c.1 with matched := outer }, c.2)) he)
  have htext : (b.endCapture.unmatch outer).expandText (b.endCapture.unmatch outer).text =
      b.expandText b.text := by
    have hs : (b.endCapture.unmatch outer).substitutor = b.substitutor :=
      congrArg (·.1.substitutor) hu
    have ht : (b.endCapture.unmatch outer).text = b.text := congrArg (·.1.text) hu
    unfold Binder.expandText
    rw [hs, ht]
  change endElement x tag.uri tag.localName tag.qualifiedName b = _
  unfold endElement
  rw [Action.get_bind_run]
  simp only [hc]
  rw [Action.set_bind_run]
  unfold closeElement
  rw [Action.get_bind_run]
  simp only [hmatched]
  rw [Action.set_bind_run, htext]
  rfl

/-- An end tag makes the calls of its element and comes back to the element around. -/
theorem meets_close (hx : x.Quiet) (tag : EndTag) (b : Binder κ) (found : List (RuleRef κ))
    (outer : List (List (RuleRef κ))) (hc : b.capture.bind (·.close?) = none)
    (hm : b.matched = found :: outer) :
    (deliver x (.close tag)).Meets b
      (fun _ b' => b'.capture = none ∧
        b'.progress = b.progress.closed tag found outer (b.expandText b.text))
      (EndsEarly x) := by
  rw [Action.meets_congr (close_eq_closeRules tag hc hm)]
  unfold closeRules
  simp only [Action.meets_bind, Action.meets_modify]
  have hs := b.course_closing outer
  refine (meets_callRules hx _ found _).mono (fun _ m₁ h₁ => ?_) fun _ _ => id
  refine (meets_callRules hx _ found.reverse _).mono (fun _ m₂ h₂ => ?_) fun _ _ => id
  constructor
  · have hbody : m₁.resumeText.capture.isSome = false := by
      have hclosed : (b.closing outer).capture = none := congrArg Prod.snd hs
      rw [show m₁.resumeText.capture = m₁.capture from rfl, h₁.2.1,
        RuleRef.any_startsCapture _ (by simp [Callback.phase]), hclosed]
      rfl
    rw [Binder.capture_leave, ← Option.not_isSome_iff_eq_none, h₂.2.1, hbody,
      RuleRef.any_startsCapture _ (by simp [Callback.phase])]
    exact Bool.false_ne_true
  · rw [Binder.progress_leave, h₂.1]
    change (((m₁.progress).resumeText).called _ _).leave = _
    rw [h₁.1, show (b.closing outer).progress = _ from congrArg Prod.fst hs]
    rfl

/-! ### Elements and content -/

/-- The calls that content makes, delivered to a binder. An element asks the matcher for its list at
its start tag. The bodies of an element that is captured get the empty text, and nothing inside it
makes a call. -/
def Content.calls (x : Extension κ) : Content → Binder κ → List (Call κ)
  | .done, _ => []
  | .text content rest, b => rest.calls x (b.characters content)
  | .element tag inner closing rest, b =>
    let found := (b.rulesAt? tag).getD []
    let opened := (deliver x (.start tag)).after b
    let filled := (deliverAll x inner.events).after opened
    let closed := (deliver x (.close closing)).after filled
    let captured := opened.capture.isSome
    found.map (⟨·, .start tag.uri tag.name (b.expandAttributes tag.attrs)⟩) ++
      (if captured then [] else inner.calls x opened) ++
      found.map (⟨·, .body closing.uri closing.name
        (b.expandText (if captured then "" else inner.ownText))⟩) ++
      found.reverse.map (⟨·, .close closing.uri closing.name⟩) ++
      rest.calls x closed

/-- What content leaves behind: the place where it stood, with its text and its calls. -/
structure Dispatched (x : Extension κ) (c : Content) (b b' : Binder κ) : Prop where
  capture : b'.capture = none
  progress : b'.progress =
    { b.progress with
      text := b.text ++ c.ownText, metrics := b'.metrics
      calls := (c.calls x b).reverse ++ b.calls }

theorem characters_of_not_capturing (content : String) {b : Binder κ} (hb : b.capture = none) :
    b.characters content = { b with text := b.text ++ content } := by
  unfold Binder.characters
  rw [hb]

theorem characters_of_capturing (content : String) {b : Binder κ} {c : Capture}
    (hb : b.capture = some c) :
    b.characters content = { b with capture := some (c.text content) } := by
  unfold Binder.characters
  rw [hb]

/-- The content of an element, with the two ways it may go: into a captured node, or to the rules.
Either way the element itself is what the next end tag closes. -/
theorem meets_inner (inner : Content)
    (ih : ∀ b : Binder κ, b.capture = none →
      (deliverAll x inner.events).Meets b (fun _ b' => Dispatched x inner b b') (EndsEarly x))
    (o : Binder κ) (hfresh : Capture.Fresh o.capture) :
    (deliverAll x inner.events).Meets o
      (fun _ f => f.capture.bind (·.close?) = none ∧ f.capture.isSome = o.capture.isSome ∧
        f.progress =
          { o.progress with
            text := o.text ++ if o.capture.isSome then "" else inner.ownText
            metrics := f.metrics
            calls := (if o.capture.isSome then [] else inner.calls x o).reverse ++ o.calls })
      (EndsEarly x) := by
  cases hc : o.capture with
  | none =>
    refine (ih o hc).mono (fun _ f h => ?_) fun _ _ => id
    rw [h.capture]
    exact ⟨rfl, rfl, h.progress⟩
  | some own =>
    rw [Action.meets_of_ok (deliverAll_captured x inner o own hc)]
    constructor
    · have hl := own.length_nested_take inner
      rw [hfresh own hc] at hl
      change (own.take inner).close? = none
      unfold Capture.close?
      rw [List.eq_nil_of_length_eq_zero hl]
    · refine ⟨rfl, ?_⟩
      change o.progress = { o.progress with text := o.text ++ "", calls := [] ++ o.calls }
      rw [String.append_empty]
      rfl

/-- At its end tag an element still has its rules, and its text is expanded as in front of its start
tag. -/
theorem Binder.filled {b o f : Binder κ} {tag : StartTag} {found : List (RuleRef κ)} {cb : Callback}
    {calls : List (Call κ)} {text : String}
    (ho : o.progress = (b.opened x tag found).progress.called cb found)
    (hf : f.progress =
      { o.progress with text := o.text ++ text, metrics := f.metrics, calls }) :
    f.matched = found :: b.matched ∧ f.expandText f.text = b.expandText text := by
  rw [Binder.progress_opened] at ho
  rw [ho] at hf
  have hs : f.substitutor = b.substitutor := congrArg Progress.substitutor hf
  have ht : f.text = o.text ++ text := congrArg Progress.text hf
  have hot : o.text = "" := congrArg Progress.text ho
  refine ⟨congrArg Progress.matched hf, ?_⟩
  unfold Binder.expandText
  rw [hs, ht, hot, String.empty_append]

/-- Content puts its calls on the record and comes back to the place where it stood. -/
theorem meets_content (hx : x.Quiet) (c : Content) (b : Binder κ) (hb : b.capture = none) :
    (deliverAll x c.events).Meets b (fun _ b' => Dispatched x c b b') (EndsEarly x) := by
  induction c generalizing b with
  | done =>
    refine ⟨hb, ?_⟩
    change b.progress = { b.progress with text := b.text ++ "" }
    rw [String.append_empty]
    rfl
  | text content rest ih =>
    change (deliverAll x rest.events).Meets (b.characters content) _ _
    have hm := characters_of_not_capturing content hb
    refine (ih _ (by rw [hm, hb])).mono (fun _ b' h => ⟨h.capture, ?_⟩) fun _ _ => id
    rw [h.progress, hm, Content.ownText, ← String.append_assoc]
    rw [Content.calls, hm]
    rfl
  | element tag inner closing rest inner_ih rest_ih =>
    rw [deliverAll_element, Action.meets_bind]
    refine (meets_start hx tag b hb).mono_run (fun _ o ho hstart => ?_) fun _ _ => id
    obtain ⟨found, hfound, hop, hfresh⟩ := hstart
    rw [Action.meets_bind]
    refine (meets_inner inner inner_ih o hfresh).mono_run (fun _ f hf hinner => ?_) fun _ _ => id
    obtain ⟨hclosable, -, hfp⟩ := hinner
    obtain ⟨hmatched, htext⟩ := Binder.filled hop hfp
    rw [Binder.progress_opened] at hop
    rw [hop] at hfp
    rw [Action.meets_bind]
    refine (meets_close hx closing f found b.matched hclosable hmatched).mono_run
      (fun _ z hz hclose => ?_) fun _ _ => id
    refine (rest_ih z hclose.1).mono (fun _ b' h => ⟨h.capture, ?_⟩) fun _ _ => id
    have hzp := hclose.2
    rw [hfp, htext] at hzp
    have hzt : z.text = b.text := congrArg Progress.text hzp
    have hzc : z.calls = _ := congrArg Progress.calls hzp
    have hoc : o.calls = _ := congrArg Progress.calls hop
    rw [h.progress, hzp, hzt, hzc, hoc, Content.calls, hfound, Action.after_of_ok ho,
      Action.after_of_ok hf, Action.after_of_ok hz]
    simp only [Option.getD_some, List.reverse_append, List.append_assoc]
    rfl

/-! ### The end of a document -/

theorem unseenRules_sublist (seen : List Nat) (refs : List (RuleRef κ)) :
    (unseenRules seen refs).Sublist refs := by
  induction refs generalizing seen with
  | nil => exact List.Sublist.refl []
  | cons ref rest ih =>
    unfold unseenRules
    split
    · exact (ih seen).cons ref
    · exact (ih (ref.id :: seen)).cons_cons ref

/-- The rules that the end of a document calls are the registered ones without repetition, each at
the place of its first registration. -/
theorem distinctRules_eq_eraseDupsBy (refs : List (RuleRef κ)) :
    distinctRules refs = refs.eraseDupsBy fun r s => r.id == s.id := by
  have key : ∀ seen : List (RuleRef κ), List.eraseDupsBy.loop (fun r s => r.id == s.id) refs seen =
      seen.reverse ++ unseenRules (seen.map (·.id)) refs := by
    induction refs with
    | nil => intro seen; simp [List.eraseDupsBy.loop, unseenRules]
    | cons ref rest ih =>
      intro seen
      have hseen : (seen.map (·.id)).contains ref.id = seen.any fun s => ref.id == s.id :=
        List.contains_map
      rw [List.eraseDupsBy.loop, unseenRules, hseen]
      cases seen.any fun s => ref.id == s.id with
      | true => exact ih seen
      | false =>
        rw [ih (ref :: seen)]
        simp
  exact (key []).symm

theorem Binder.calls_noteLeftover (b : Binder κ) : b.noteLeftover.calls = b.calls := by
  unfold noteLeftover
  split
  · exact b.calls_note ..
  · rfl

theorem Binder.matcher_noteLeftover (b : Binder κ) : b.noteLeftover.matcher = b.matcher := by
  unfold noteLeftover
  split
  · exact b.matcher_note ..
  · rfl

/-- The end of a document calls every registered rule once. -/
theorem meets_endDocument (hx : x.Quiet) (b : Binder κ) :
    (endDocument x).Meets b (fun _ b' => b'.calls =
      ((distinctRules b.matcher.rules).map (⟨·, .finish⟩)).reverse ++ b.calls) (EndsEarly x) := by
  unfold endDocument
  simp only [Action.meets_bind, Action.meets_modify, Action.meets_get, Action.meets_attempt]
  rw [b.matcher_noteLeftover]
  refine (meets_callRules hx .finish _ b.noteLeftover).mono (fun _ s h => ?_) fun halt s h => ?_
  · have hcalls : s.calls = _ := congrArg Progress.calls h.1
    change (s.note .debug .dispatch "end document").calls = _
    rw [s.calls_note, hcalls]
    exact congrArg (_ ++ ·) b.calls_noteLeftover
  · cases halt with
    | crash => exact h
    | error cause =>
      obtain ⟨call, rest, failed, failed', why, hcalls, hfail⟩ := h
      exact ⟨call, rest, failed, failed', why, (s.calls_note ..).trans hcalls, hfail⟩

end XmlBinding
