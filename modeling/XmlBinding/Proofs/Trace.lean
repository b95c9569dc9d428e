import XmlBinding.Document
import XmlBinding.Proofs.Dispatch

/-!
# The trace of a document

Behind a document that got through so far stands the list of all calls that its events made, each
with the binder that the rule found and the one that it left. What an event does is said once, by
cases; a delivery is one event after the other. Between two events a reader may be at work: it notes
positions and declares names of namespaces. So reading a text is a delivery of its events.
-/
namespace XmlBinding

variable {κ : Type} {x : Extension κ}

/-! ### Calls -/

/-- A call of a rule, with the binder that it found and the one that it left. -/
structure Firing (κ : Type) where
  call : Call κ
  before : Binder κ
  after : Binder κ

/-- Rules that are called one after the other and get through, with what each of them did. -/
inductive Called (x : Extension κ) (cb : Callback) :
    List (RuleRef κ) → Binder κ → List (Firing κ) → Binder κ → Prop
  | nil (b : Binder κ) : Called x cb [] b [] b
  | cons {ref : RuleRef κ} {rest : List (RuleRef κ)} {b m b' : Binder κ} {fs : List (Firing κ)}
      (h : ref.fire x cb (b.recordCall x cb ref) = .ok () m) (hrest : Called x cb rest m fs b') :
      Called x cb (ref :: rest) b (⟨⟨ref, cb⟩, b.recordCall x cb ref, m⟩ :: fs) b'

theorem callRule_eq_ok {cb : Callback} {ref : RuleRef κ} {b b' : Binder κ} :
    callRule x cb ref b = .ok () b' ↔ ref.fire x cb (b.recordCall x cb ref) = .ok () b' := by
  unfold callRule
  rw [Action.modify_bind_run]
  generalize b.recordCall x cb ref = s
  cases hr : ref.fire x cb s with
  | ok a m =>
    rw [Action.bind_run_of_ok (Action.attempt_of_ok hr)]
    constructor <;> rintro ⟨⟩ <;> rfl
  | error halt m =>
    refine ⟨fun h => ?_, nofun⟩
    cases halt with
    | error cause =>
      rw [Action.bind_run_of_ok (Action.attempt_of_error hr)] at h
      cases h
    | crash =>
      rw [Action.bind_run_of_error (Action.attempt_of_crash hr)] at h
      cases h

theorem callRules_eq_ok {cb : Callback} {refs : List (RuleRef κ)} {b b' : Binder κ} :
    callRules x cb refs b = .ok () b' ↔ ∃ fs, Called x cb refs b fs b' := by
  induction refs generalizing b with
  | nil =>
    constructor
    · rintro ⟨⟩
      exact ⟨[], .nil _⟩
    · rintro ⟨_, ⟨⟩⟩
      rfl
  | cons ref rest ih =>
    constructor
    · intro h
      obtain ⟨⟨⟩, m, hcall, hrest⟩ := Action.bind_eq_ok.mp h
      obtain ⟨fs, hfs⟩ := ih.mp hrest
      exact ⟨_, .cons (callRule_eq_ok.mp hcall) hfs⟩
    · rintro ⟨_, hcalled⟩
      cases hcalled with
      | cons hfire hrest =>
        exact Action.bind_eq_ok.mpr ⟨(), _, callRule_eq_ok.mpr hfire, ih.mpr ⟨_, hrest⟩⟩

/-- The binder behind a call that failed: the failure has been noted. -/
def Binder.noteFailure (x : Extension κ) (cb : Callback) (ref : RuleRef κ) (cause : RuleError)
    (b : Binder κ) : Binder κ :=
  b.note .error .dispatch (ref.name x ++ "." ++ cb.phase.label ++ "() failed at '" ++ b.path ++
    "': " ++ cause.message)

/-- A call that does not get through: how it ends, and the binder that it leaves. -/
inductive Fails (x : Extension κ) (cb : Callback) (ref : RuleRef κ) (b : Binder κ) :
    Halt BindError → Binder κ → Prop
  | error {cause : RuleError} {s : Binder κ}
      (h : ref.fire x cb (b.recordCall x cb ref) = .error (.error cause) s) :
      Fails x cb ref b (.error (s.report (ref.name x) cb.phase cause))
        (s.noteFailure x cb ref cause)
  | crash {s : Binder κ} (h : ref.fire x cb (b.recordCall x cb ref) = .error .crash s) :
      Fails x cb ref b .crash s

theorem fails_of_callRule {cb : Callback} {ref : RuleRef κ} {b b' : Binder κ}
    {halt : Halt BindError} (h : callRule x cb ref b = .error halt b') :
    Fails x cb ref b halt b' := by
  cases hr : ref.fire x cb (b.recordCall x cb ref) with
  | ok a m => cases h.symm.trans (callRule_eq_ok.mpr hr)
  | error cause m =>
    unfold callRule at h
    rw [Action.modify_bind_run] at h
    cases cause with
    | error cause =>
      rw [Action.bind_run_of_ok (Action.attempt_of_error hr)] at h
      cases h
      exact .error hr
    | crash =>
      rw [Action.bind_run_of_error (Action.attempt_of_crash hr)] at h
      cases h
      exact .crash hr

/-- The first rule that fails ends the calls: those in front of it got through, and those behind it
are not called. -/
theorem fails_of_callRules {cb : Callback} {refs : List (RuleRef κ)} {b b' : Binder κ}
    {halt : Halt BindError} (h : callRules x cb refs b = .error halt b') :
    ∃ front ref back fs m, refs = front ++ ref :: back ∧ Called x cb front b fs m ∧
      Fails x cb ref m halt b' := by
  induction refs generalizing b with
  | nil => cases h
  | cons ref rest ih =>
    change (callRule x cb ref >>= fun _ => callRules x cb rest) b = _ at h
    cases hr : callRule x cb ref b with
    | ok a m =>
      rw [Action.bind_run_of_ok hr] at h
      obtain ⟨front, first, back, fs, s, rfl, hfront, hfails⟩ := ih h
      exact ⟨ref :: front, first, back, _, s, rfl, .cons (callRule_eq_ok.mp hr) hfront, hfails⟩
    | error halt' m =>
      rw [Action.bind_run_of_error hr] at h
      cases h
      exact ⟨[], ref, rest, [], b, rfl, .nil b, fails_of_callRule hr⟩

namespace Called

variable {cb : Callback} {refs more : List (RuleRef κ)} {b m b' : Binder κ} {fs gs : List (Firing κ)}

/-- The first rule finds the binder in front of the calls, with its own call recorded. -/
theorem before_eq {ref : RuleRef κ} {f : Firing κ} (h : Called x cb (ref :: refs) b (f :: fs) b') :
    f.before = b.recordCall x cb ref := by
  generalize hall : f :: fs = all at h
  cases h
  cases hall
  rfl

/-- Calls of two lists are the calls of the one and then those of the other. -/
theorem split (h : Called x cb (refs ++ more) b fs b') :
    ∃ m front back, fs = front ++ back ∧ Called x cb refs b front m ∧
      Called x cb more m back b' := by
  induction refs generalizing b fs with
  | nil => exact ⟨b, [], fs, rfl, .nil b, h⟩
  | cons ref rest ih =>
    cases h with
    | cons hfire hrest =>
      obtain ⟨m, front, back, rfl, hfront, hback⟩ := ih hrest
      exact ⟨m, _ :: front, back, rfl, .cons hfire hfront, hback⟩

/-- Every rule of the list is called once, in the order of the list. -/
theorem map_call (h : Called x cb refs b fs b') : fs.map Firing.call = refs.map (⟨·, cb⟩) := by
  induction h with
  | nil => rfl
  | cons _ _ ih => rw [List.map_cons, ih, List.map_cons]

theorem progress (hx : x.Quiet) (h : Called x cb refs b fs b') :
    b'.progress = b.progress.called cb refs ∧
      b'.capture.isSome = (b.capture.isSome || refs.any (·.startsCapture cb)) ∧
      (Capture.Fresh b.capture → Capture.Fresh b'.capture) :=
  (Action.meets_of_ok (callRules_eq_ok.mpr ⟨_, h⟩)).mp (meets_callRules hx cb refs b)

/-- What every rule leaves as it was when it gets through, and the record of a call does not show,
stays through all calls. -/
theorem keeps {γ : Type} {view : Binder κ → γ}
    (hfire : ∀ (ref : RuleRef κ) (b b' : Binder κ), ref.fire x cb b = .ok () b' → view b' = view b)
    (hrecord : ∀ ref b, view (b.recordCall x cb ref) = view b) (h : Called x cb refs b fs b') :
    view b' = view b := by
  induction h with
  | nil => rfl
  | cons h _ ih => exact ih.trans ((hfire _ _ _ h).trans (hrecord ..))

end Called

/-! ### Events -/

/-- What one event does when it gets through, and the calls that it makes. -/
inductive Answers (x : Extension κ) : DocumentEvent → Binder κ → List (Firing κ) → Binder κ → Prop
  | text (content : String) (b : Binder κ) : Answers x (.text content) b [] (b.characters content)
  | startInside (tag : StartTag) {b : Binder κ} {c : Capture} (hb : b.capture = some c) :
      Answers x (.start tag) b [] { b with capture := some (c.start tag.uri tag.name tag.attrs) }
  | start {tag : StartTag} {b o : Binder κ} {found : List (RuleRef κ)} {fs : List (Firing κ)}
      (hb : b.capture = none) (hfound : b.rulesAt? tag = some found)
      (hcalled : Called x (.start tag.uri tag.name (b.expandAttributes tag.attrs)) found
        (b.opened x tag found) fs o) :
      Answers x (.start tag) b fs o
  | closeInside (tag : EndTag) {b : Binder κ} {c c' : Capture} (hb : b.capture = some c)
      (hc : c.close? = some c') : Answers x (.close tag) b [] { b with capture := some c' }
  | close {tag : EndTag} {b m m' : Binder κ} {found : List (RuleRef κ)}
      {outer : List (List (RuleRef κ))} {fs gs : List (Firing κ)}
      (hc : b.capture.bind (·.close?) = none) (hm : b.matched = found :: outer)
      (hbodies : Called x (.body tag.uri tag.name (b.expandText b.text)) found (b.closing outer) fs
        m)
      (hends : Called x (.close tag.uri tag.name) found.reverse m.resumeText gs m') :
      Answers x (.close tag) b (fs ++ gs) m'.leave

theorem answers_of_start {tag : StartTag} {b b' : Binder κ}
    (h : deliver x (.start tag) b = .ok () b') : ∃ fs, Answers x (.start tag) b fs b' := by
  cases hb : b.capture with
  | some c =>
    rw [startElement_captured x tag b c hb] at h
    cases h
    exact ⟨[], .startInside tag hb⟩
  | none =>
    cases hfound : b.rulesAt? tag with
    | none =>
      rw [start_eq_crash tag hb hfound] at h
      cases h
    | some found =>
      rw [start_eq_callRules tag hb hfound] at h
      obtain ⟨fs, hcalled⟩ := callRules_eq_ok.mp h
      exact ⟨fs, .start hb hfound hcalled⟩

theorem Binder.matched_endCapture (b : Binder κ) : b.endCapture.matched = b.matched :=
  congrArg (·.1.matched) b.course_endCapture

/-- An end tag without a start tag does not get through. -/
theorem close_eq_unbalanced (tag : EndTag) {b : Binder κ} (hc : b.capture.bind (·.close?) = none)
    (hm : b.matched = []) :
    deliver x (.close tag) b = .error (.error (.unbalanced tag.name)) b.endCapture := by
  have hmatched : b.endCapture.matched = [] := b.matched_endCapture.trans hm
  change endElement x tag.uri tag.localName tag.qualifiedName b = _
  unfold endElement
  rw [Action.get_bind_run]
  simp only [hc]
  rw [Action.set_bind_run]
  unfold closeElement
  rw [Action.get_bind_run]
  simp only [hmatched]
  rfl

/-- What the rules of an end tag do when they get through: the bodies, then the ends. -/
theorem closeRules_eq_ok {tag : EndTag} {found : List (RuleRef κ)} {text : String}
    {b b' : Binder κ} : closeRules x tag found text b = .ok () b' ↔ ∃ fs m gs m',
      Called x (.body tag.uri tag.name text) found b fs m ∧
      Called x (.close tag.uri tag.name) found.reverse m.resumeText gs m' ∧ b' = m'.leave := by
  constructor
  · intro h
    obtain ⟨⟨⟩, m, hbodies, h⟩ := Action.bind_eq_ok.mp h
    rw [Action.modify_bind_run] at h
    obtain ⟨⟨⟩, m', hends, ⟨⟩⟩ := Action.bind_eq_ok.mp h
    obtain ⟨fs, hfs⟩ := callRules_eq_ok.mp hbodies
    obtain ⟨gs, hgs⟩ := callRules_eq_ok.mp hends
    exact ⟨fs, m, gs, m', hfs, hgs, rfl⟩
  · rintro ⟨fs, m, gs, m', hfs, hgs, rfl⟩
    refine Action.bind_eq_ok.mpr ⟨(), m, callRules_eq_ok.mpr ⟨fs, hfs⟩, ?_⟩
    rw [Action.modify_bind_run]
    exact Action.bind_eq_ok.mpr ⟨(), m', callRules_eq_ok.mpr ⟨gs, hgs⟩, rfl⟩

theorem answers_of_close {tag : EndTag} {b b' : Binder κ}
    (h : deliver x (.close tag) b = .ok () b') : ∃ fs, Answers x (.close tag) b fs b' := by
  cases hc : b.capture.bind (·.close?) with
  | some c' =>
    obtain ⟨c, hb, hc'⟩ := Option.bind_eq_some_iff.mp hc
    rw [endElement_captured x tag b c c' hb hc'] at h
    cases h
    exact ⟨[], .closeInside tag hb hc'⟩
  | none =>
    cases hm : b.matched with
    | nil =>
      rw [close_eq_unbalanced tag hc hm] at h
      cases h
    | cons found outer =>
      rw [close_eq_closeRules tag hc hm] at h
      obtain ⟨fs, m, gs, m', hbodies, hends, rfl⟩ := closeRules_eq_ok.mp h
      exact ⟨_, .close hc hm hbodies hends⟩

theorem deliver_of_answers {e : DocumentEvent} {b b' : Binder κ} {fs : List (Firing κ)}
    (h : Answers x e b fs b') : deliver x e b = .ok () b' := by
  cases h with
  | text content => rfl
  | startInside tag hb => exact startElement_captured x tag b _ hb
  | start hb hfound hcalled =>
    rw [start_eq_callRules _ hb hfound]
    exact callRules_eq_ok.mpr ⟨fs, hcalled⟩
  | closeInside tag hb hc => exact endElement_captured x tag b _ _ hb hc
  | close hc hm hbodies hends =>
    rw [close_eq_closeRules _ hc hm]
    exact closeRules_eq_ok.mpr ⟨_, _, _, _, hbodies, hends, rfl⟩

/-- The cases of `Answers` are all that an event can do when it gets through. -/
theorem deliver_eq_ok {e : DocumentEvent} {b b' : Binder κ} :
    deliver x e b = .ok () b' ↔ ∃ fs, Answers x e b fs b' := by
  refine ⟨fun h => ?_, fun ⟨_, h⟩ => deliver_of_answers h⟩
  cases e with
  | start tag => exact answers_of_start h
  | text content =>
    cases h
    exact ⟨[], .text content b⟩
  | close tag => exact answers_of_close h

/-! ### Deliveries -/

/-- The binder without what a reader changes between two events. -/
def Binder.unread (b : Binder κ) : Binder κ :=
  { b with position := none, bindings := ∅, journal := {} }

theorem Binder.bindName_eq (b : Binder κ) (label uri : String) : b.bindName label uri =
    { b with
      bindings := (b.bindName label uri).bindings
      journal := (b.bindName label uri).journal } := by
  unfold bindName note
  dsimp only
  split <;> rfl

theorem Binder.unbindName_eq (b : Binder κ) (label : String) : b.unbindName label =
    { b with
      bindings := (b.unbindName label).bindings
      journal := (b.unbindName label).journal } := by
  unfold unbindName note
  split
  · split <;> rfl
  · split <;> rfl

theorem Binder.unread_characters (b : Binder κ) (content : String) :
    (b.characters content).unread = b.unread.characters content := by
  obtain ⟨matcher, stack, params, named, root, path, outerPaths, matched, text, outerTexts,
    capture⟩ := b
  cases capture <;> rfl

theorem Binder.progress_eq_of_unread {s b : Binder κ} (h : s.unread = b.unread) :
    s.progress = b.progress := by
  have hprogress := congrArg progress h
  exact hprogress

theorem Binder.unread_setCapture {s b : Binder κ} (h : s.unread = b.unread)
    (capture : Option Capture) : { s with capture }.unread = { b with capture }.unread :=
  congrArg (fun m : Binder κ => { m with capture }) h

/-- Events that get through one after the other, with all calls that they make. A reader may be at
work before each of them and behind the last. -/
inductive Delivered (x : Extension κ) :
    List DocumentEvent → Binder κ → List (Firing κ) → Binder κ → Prop
  | done {b b' : Binder κ} (h : b'.unread = b.unread) : Delivered x [] b [] b'
  | step {e : DocumentEvent} {es : List DocumentEvent} {b s m b' : Binder κ}
      {fs gs : List (Firing κ)} (hs : s.unread = b.unread) (he : Answers x e s fs m)
      (hes : Delivered x es m gs b') : Delivered x (e :: es) b (fs ++ gs) b'

namespace Delivered

variable {es es' : List DocumentEvent} {b s m b' : Binder κ} {fs gs : List (Firing κ)}

/-- The reader may be at work before. -/
theorem lead (hs : s.unread = b.unread) (h : Delivered x es s fs b') : Delivered x es b fs b' := by
  cases h with
  | done h => exact .done (h.trans hs)
  | step hs' he hes => exact .step (hs'.trans hs) he hes

theorem append (h : Delivered x es b fs m) (h' : Delivered x es' m gs b') :
    Delivered x (es ++ es') b (fs ++ gs) b' := by
  induction h with
  | done hs => exact h'.lead hs
  | step hs he _ ih =>
    rw [List.append_assoc]
    exact .step hs he (ih h')

/-- The reader may be at work behind. -/
theorem trail (h : Delivered x es b fs m) (hm : b'.unread = m.unread) :
    Delivered x es b fs b' := by
  have happend := h.append (.done hm)
  rwa [List.append_nil, List.append_nil] at happend

/-- Events that get through leave a trace. -/
theorem of_deliverAll (h : deliverAll x es b = .ok () b') : ∃ fs, Delivered x es b fs b' := by
  induction es generalizing b with
  | nil =>
    cases h
    exact ⟨[], .done rfl⟩
  | cons e rest ih =>
    obtain ⟨⟨⟩, m, he, hrest⟩ := Action.bind_eq_ok.mp h
    obtain ⟨fs, hanswers⟩ := deliver_eq_ok.mp he
    obtain ⟨gs, hdelivered⟩ := ih hrest
    exact ⟨fs ++ gs, .step rfl hanswers hdelivered⟩

/-- A delivery may be cut between any two events. -/
theorem split (h : Delivered x (es ++ es') b fs b') :
    ∃ m front back, fs = front ++ back ∧ Delivered x es b front m ∧
      Delivered x es' m back b' := by
  induction es generalizing b fs with
  | nil => exact ⟨b, [], fs, rfl, .done rfl, h⟩
  | cons e rest ih =>
    cases h with
    | step hs he hes =>
      obtain ⟨m, front, back, rfl, hfront, hback⟩ := ih hes
      exact ⟨m, _, back, (List.append_assoc ..).symm, .step hs he hfront, hback⟩

/-- What begins with a text goes on behind it. -/
theorem behind_text {content : String} (h : Delivered x (.text content :: es) b fs b') :
    Delivered x es (b.characters content) fs b' := by
  cases h with
  | step hs he hes =>
    cases he
    refine hes.lead ?_
    rw [Binder.unread_characters, hs, Binder.unread_characters]

/-- Inside a captured node a start tag opens an element of the node. -/
theorem behind_start_inside {tag : StartTag} {own : Capture} (hb : b.capture = some own)
    (h : Delivered x (.start tag :: es) b fs b') :
    Delivered x es { b with capture := some (own.start tag.uri tag.name tag.attrs) } fs b' := by
  cases h with
  | step hs he hes =>
    have hcapture := (congrArg Binder.capture hs).trans hb
    cases he with
    | start hnone _ _ => cases hnone.symm.trans hcapture
    | startInside _ hsome =>
      obtain rfl := Option.some.inj (hcapture.symm.trans hsome)
      exact hes.lead (Binder.unread_setCapture hs _)

/-- Inside a captured node an end tag closes an element of the node, if one is open. -/
theorem behind_close_inside {tag : EndTag} {own own' : Capture} (hb : b.capture = some own)
    (hclose : own.close? = some own') (h : Delivered x (.close tag :: es) b fs b') :
    Delivered x es { b with capture := some own' } fs b' := by
  cases h with
  | step hs he hes =>
    have hcapture := (congrArg Binder.capture hs).trans hb
    cases he with
    | close hnone _ _ _ =>
      have hsome : (Binder.capture _).bind (·.close?) = some own' :=
        (congrArg (Option.bind · _) hcapture).trans hclose
      cases hnone.symm.trans hsome
    | closeInside _ hsome hc =>
      obtain rfl := Option.some.inj (hcapture.symm.trans hsome)
      obtain rfl := Option.some.inj (hclose.symm.trans hc)
      exact hes.lead (Binder.unread_setCapture hs _)

/-- Inside a captured node content makes no calls and goes into the node. -/
theorem captured {c : Content} {own : Capture} (hb : b.capture = some own)
    (h : Delivered x c.events b fs b') :
    fs = [] ∧ b'.unread = { b with capture := some (own.take c) }.unread := by
  have key : ∀ (c : Content) (es : List DocumentEvent) (b : Binder κ) (own : Capture),
      b.capture = some own → Delivered x (c.events ++ es) b fs b' →
      Delivered x es { b with capture := some (own.take c) } fs b' := by
    intro c
    induction c with
    | done =>
      intro es b own hb h
      rw [Capture.take, ← hb]
      exact h
    | text content rest ih =>
      intro es b own hb h
      have hrest := h.behind_text
      rw [characters_of_capturing content hb] at hrest
      exact ih es { b with capture := some (own.text content) } _ rfl hrest
    | element tag inner closing rest inner_ih rest_ih =>
      intro es b own hb h
      have hlength := (own.start tag.uri tag.name tag.attrs).length_nested_take inner
      obtain ⟨own', hown', -⟩ := Capture.close?_of_length (hlength.trans (List.length_cons ..))
      have hwhole : Delivered x
          (.start tag :: (inner.events ++ .close closing :: (rest.events ++ es))) b fs b' := by
        simpa [Content.events] using h
      have hinner := hwhole.behind_start_inside hb
      have hclose := (inner_ih _ { b with capture := some (own.start tag.uri tag.name tag.attrs) } _
        rfl hinner).behind_close_inside rfl hown'
      have hrest := rest_ih es { b with capture := some own' } _ rfl hclose
      simpa only [Capture.take, hown', Option.getD_some] using hrest
  have hdone := key c [] b own hb (by rwa [List.append_nil])
  cases hdone with
  | done h => exact ⟨rfl, h⟩

/-- Inside a captured node an element makes no calls. -/
theorem captured_element {tag : StartTag} {inner : Content} {closing : EndTag} {own : Capture}
    (hb : b.capture = some own)
    (h : Delivered x (.start tag :: (inner.events ++ .close closing :: es)) b fs b') :
    ∃ m, Delivered x es m fs b' := by
  have hsplit : DocumentEvent.start tag :: (inner.events ++ .close closing :: es) =
      (Content.element tag inner closing .done).events ++ es := by
    simp [Content.events]
  rw [hsplit] at h
  obtain ⟨m, front, back, rfl, hfront, hback⟩ := h.split
  obtain ⟨rfl, -⟩ := hfront.captured hb
  exact ⟨m, hback⟩

end Delivered

/-! ### The record of calls -/

/-- Rules of the user's own that leave the record of calls alone, even when they fail. -/
def Extension.KeepsCalls (x : Extension κ) : Prop :=
  ∀ rule cb, (x.fire rule cb).Keeps Binder.calls

theorem Extension.Quiet.keepsCalls (hx : x.Quiet) : x.KeepsCalls := fun rule cb =>
  (hx.keeps rule cb).of_view (·.1.calls) fun _ => rfl

theorem RuleRef.calls_fire (hx : x.KeepsCalls) (ref : RuleRef κ) (cb : Callback) :
    (ref.fire x cb).Keeps Binder.calls := by
  obtain ⟨id, rule | rule⟩ := ref
  · exact (StandardRule.progress_fire rule cb).of_view Progress.calls fun _ => rfl
  · exact hx rule cb

namespace Binder

theorem calls_recordCall (x : Extension κ) (cb : Callback) (ref : RuleRef κ) (b : Binder κ) :
    (b.recordCall x cb ref).calls = ⟨ref, cb⟩ :: b.calls :=
  congrArg (·.1.calls) (b.course_recordCall x cb ref)

theorem calls_enter (b : Binder κ) (name : String) : (b.enter name).calls = b.calls :=
  congrArg Progress.calls (b.progress_enter name)

theorem calls_closing (b : Binder κ) (outer : List (List (RuleRef κ))) :
    (b.closing outer).calls = b.calls :=
  congrArg (·.1.calls) (b.course_closing outer)

theorem calls_leave (b : Binder κ) : b.leave.calls = b.calls := by
  unfold leave
  split <;> rfl

theorem calls_characters (b : Binder κ) (content : String) :
    (b.characters content).calls = b.calls := by
  unfold characters
  split <;> rfl

theorem calls_of_unread {s b : Binder κ} (h : s.unread = b.unread) : s.calls = b.calls :=
  congrArg Progress.calls (progress_eq_of_unread h)

end Binder

theorem Called.recorded (hx : x.KeepsCalls) {cb : Callback} {refs : List (RuleRef κ)}
    {b b' : Binder κ} {fs : List (Firing κ)} (h : Called x cb refs b fs b') :
    b'.calls = (fs.map Firing.call).reverse ++ b.calls := by
  induction h with
  | nil => rfl
  | cons hfire _ ih =>
    rw [ih, (RuleRef.calls_fire hx _ cb).of_ok hfire, Binder.calls_recordCall, List.map_cons,
      List.reverse_cons, List.append_assoc, List.singleton_append]

/-- A call is on record even if it does not get through. -/
theorem Fails.recorded (hx : x.KeepsCalls) {cb : Callback} {ref : RuleRef κ} {b b' : Binder κ}
    {halt : Halt BindError} (h : Fails x cb ref b halt b') : b'.calls = ⟨ref, cb⟩ :: b.calls := by
  have hfire := (RuleRef.calls_fire hx ref cb).keepsAt (b.recordCall x cb ref)
  rw [Action.KeepsAt, b.calls_recordCall] at hfire
  cases h with
  | error h =>
    rw [Action.after_of_error h] at hfire
    exact (Binder.calls_note ..).trans hfire
  | crash h => rwa [Action.after_of_error h] at hfire

/-- Every event puts its calls on the record, in the order in which they were made. -/
theorem Answers.recorded (hx : x.KeepsCalls) {e : DocumentEvent} {b b' : Binder κ}
    {fs : List (Firing κ)} (h : Answers x e b fs b') :
    b'.calls = (fs.map Firing.call).reverse ++ b.calls := by
  cases h with
  | text content => exact b.calls_characters content
  | startInside | closeInside => rfl
  | start _ _ hcalled =>
    rw [hcalled.recorded hx]
    exact congrArg _ (b.calls_enter _)
  | @close _ _ m _ _ _ _ _ _ _ hbodies hends =>
    have hresume : m.resumeText.calls = m.calls := rfl
    rw [Binder.calls_leave, hends.recorded hx, hresume, hbodies.recorded hx, b.calls_closing,
      List.map_append, List.reverse_append, List.append_assoc]

theorem Delivered.recorded (hx : x.KeepsCalls) {es : List DocumentEvent} {b b' : Binder κ}
    {fs : List (Firing κ)} (h : Delivered x es b fs b') :
    b'.calls = (fs.map Firing.call).reverse ++ b.calls := by
  induction h with
  | done hb => exact Binder.calls_of_unread hb
  | step hs he _ ih =>
    rw [ih, he.recorded hx, Binder.calls_of_unread hs, List.map_append, List.reverse_append,
      List.append_assoc]

theorem Delivered.calls (hx : x.Quiet) {es : List DocumentEvent} {b b' : Binder κ}
    {fs : List (Firing κ)} (h : Delivered x es b fs b') :
    b'.calls = (fs.map Firing.call).reverse ++ b.calls := h.recorded hx.keepsCalls

/-! ### Elements -/

/-- An element that got through from its start tag to its end tag: the list of its rules, what the
starts, the content, the bodies and the ends did, and the binder at the points between them. -/
structure Passage (x : Extension κ) (tag : StartTag) (inner : Content) (closing : EndTag)
    (b b' : Binder κ) where
  /-- The binder at the start tag. -/
  entry : Binder κ
  entry_unread : entry.unread = b.unread
  found : List (RuleRef κ)
  found_eq : entry.rulesAt? tag = some found
  starting : List (Firing κ)
  /-- The binder behind the starts. -/
  opened : Binder κ
  starts : Called x (.start tag.uri tag.name (entry.expandAttributes tag.attrs)) found
    (entry.opened x tag found) starting opened
  within : List (Firing κ)
  /-- The binder at the end tag. -/
  filled : Binder κ
  content : Delivered x inner.events opened within filled
  opaque_content : opened.capture.isSome = true → within = []
  closable : filled.capture.bind (·.close?) = none
  matched_eq : filled.matched = found :: b.matched
  /-- The text that the bodies get. -/
  text : String
  text_eq : text = b.expandText (if opened.capture.isSome then "" else inner.ownText)
  telling : List (Firing κ)
  /-- The binder behind the bodies. -/
  told : Binder κ
  bodies : Called x (.body closing.uri closing.name text) found (filled.closing b.matched) telling
    told
  ending : List (Firing κ)
  /-- The binder behind the ends. -/
  ended : Binder κ
  ends : Called x (.close closing.uri closing.name) found.reverse told.resumeText ending ended
  leave_eq : b' = ended.leave

/-- All calls of the element, those of its content between its own. -/
def Passage.firings {tag : StartTag} {inner : Content} {closing : EndTag} {b b' : Binder κ}
    (p : Passage x tag inner closing b b') : List (Firing κ) :=
  p.starting ++ p.within ++ p.telling ++ p.ending

namespace Delivered

variable {es : List DocumentEvent} {b b' o f : Binder κ} {fs : List (Firing κ)}

/-- What content leaves behind: the place where it stood, with its text and its calls. -/
structure Settles (c : Content) (b : Binder κ) (fs : List (Firing κ)) (b' : Binder κ) : Prop where
  capture : b'.capture = none
  progress : b'.progress =
    { b.progress with
      text := b.text ++ c.ownText, metrics := b'.metrics
      calls := (fs.map Firing.call).reverse ++ b.calls }

/-- The content of an element, with the two ways it may go: into a captured node, or to the rules. -/
theorem inner {inner : Content}
    (ih : ∀ {b fs b'}, b.capture = none → Delivered x inner.events b fs b' →
      Settles inner b fs b')
    (hfresh : Capture.Fresh o.capture) (h : Delivered x inner.events o fs f) :
    f.capture.bind (·.close?) = none ∧ (o.capture.isSome = true → fs = []) ∧
      f.progress =
        { o.progress with
          text := o.text ++ if o.capture.isSome then "" else inner.ownText
          metrics := f.metrics, calls := (fs.map Firing.call).reverse ++ o.calls } := by
  cases hc : o.capture with
  | none =>
    have hsettles := ih hc h
    rw [hsettles.capture]
    exact ⟨rfl, nofun, hsettles.progress⟩
  | some own =>
    obtain ⟨rfl, hf⟩ := h.captured hc
    have hcapture : f.capture = some (own.take inner) := congrArg Binder.capture hf
    have hprogress := Binder.progress_eq_of_unread hf
    change f.progress = o.progress at hprogress
    have hmetrics : f.metrics = o.metrics := congrArg Progress.metrics hprogress
    refine ⟨?_, fun _ => rfl, ?_⟩
    · have hlength := own.length_nested_take inner
      rw [hfresh own hc] at hlength
      rw [hcapture, Option.bind_some]
      unfold Capture.close?
      rw [List.eq_nil_of_length_eq_zero hlength]
    · rw [hprogress, hmetrics, if_pos Option.isSome_some, String.append_empty]
      rfl

/-- An element that begins where nothing is captured gets through as a passage, if its content
settles elsewhere. What is behind it settles. -/
theorem passage (hx : x.Quiet) {tag : StartTag} {inner : Content} {closing : EndTag}
    (ih : ∀ {b fs b'}, b.capture = none → Delivered x inner.events b fs b' →
      Settles inner b fs b')
    (hb : b.capture = none)
    (h : Delivered x (.start tag :: (inner.events ++ .close closing :: es)) b fs b') :
    ∃ (m : Binder κ) (p : Passage x tag inner closing b m) (gs : List (Firing κ)),
      fs = p.firings ++ gs ∧ Delivered x es m gs b' ∧ m.capture = none ∧
      m.progress = { b.progress with
        metrics := m.metrics, calls := (p.firings.map Firing.call).reverse ++ b.calls } := by
  cases h with
  | @step _ _ _ entry opened _ starting _ hentry hstart hrest =>
    have hnone : entry.capture = none := (congrArg Binder.capture hentry).trans hb
    cases hstart with
    | startInside _ hsome => cases hnone.symm.trans hsome
    | @start _ _ _ found _ _ hfound hstarts =>
      obtain ⟨hstarted, -, hfresh⟩ := hstarts.progress hx
      have hop := hstarted
      have hep := Binder.progress_eq_of_unread hentry
      have hpath : entry.path = b.path := congrArg Progress.path hep
      have houter : entry.outerPaths = b.outerPaths := congrArg Progress.outerPaths hep
      have hmatched : entry.matched = b.matched := congrArg Progress.matched hep
      have htext : entry.text = b.text := congrArg Progress.text hep
      have htexts : entry.outerTexts = b.outerTexts := congrArg Progress.outerTexts hep
      rw [Binder.progress_opened, hep, hpath, houter, hmatched, htext, htexts] at hop
      have hfresh' : Capture.Fresh opened.capture :=
        hfresh fun own hown => by
          cases ((entry.capture_enter tag.name).trans hnone).symm.trans hown
      obtain ⟨f, within, behind, rfl, hinner, hclose⟩ := hrest.split
      cases hclose with
      | @step _ _ _ filled m _ _ gs hfilled hclose hrest =>
        have hcontent := hinner.trail hfilled
        obtain ⟨hclosable, hopaque, hfp⟩ := hcontent.inner ih hfresh'
        obtain ⟨htop, hexpanded⟩ := Binder.filled hstarted hfp
        rw [hmatched] at htop
        have htext : filled.expandText filled.text =
            b.expandText (if opened.capture.isSome then "" else inner.ownText) := by
          have hs : entry.substitutor = b.substitutor := congrArg Progress.substitutor hep
          rw [hexpanded, Binder.expandText, hs, Binder.expandText]
        rw [hop] at hfp
        have hclosed := (Action.meets_of_ok (deliver_of_answers hclose)).mp
          (meets_close hx closing filled found b.matched hclosable htop)
        cases hclose with
        | closeInside _ hsome hc =>
          rw [hsome, Option.bind_some, hc] at hclosable
          cases hclosable
        | @close _ _ told ended found' outer telling ending _ hm hbodies hends =>
          obtain ⟨rfl, rfl⟩ := List.cons.inj (htop.symm.trans hm)
          rw [htext] at hbodies
          refine ⟨ended.leave, ⟨entry, hentry, found, hfound, starting, opened, hstarts, within,
            filled, hcontent, hopaque, hclosable, htop, _, rfl, telling, told, hbodies, ending,
            ended, hends, rfl⟩, gs, ?_, hrest, hclosed.1, ?_⟩
          · simp only [Passage.firings, List.append_assoc]
          · have hcalls : opened.calls = _ := congrArg Progress.calls hop
            have hleave := hclosed.2
            rw [hfp, hcalls, htext] at hleave
            have hmetrics : ended.leave.metrics = _ := congrArg Progress.metrics hleave
            rw [hleave, hmetrics]
            simp only [Passage.firings, List.map_append, hstarts.map_call, hbodies.map_call,
              hends.map_call, List.reverse_append, List.append_assoc]
            rfl

/-- Content settles: it comes back to the place where it stood, and its calls are on the record. -/
theorem settles (hx : x.Quiet) (c : Content) (hb : b.capture = none)
    (h : Delivered x c.events b fs b') : Settles c b fs b' := by
  induction c generalizing b fs b' with
  | done =>
    cases h with
    | done h =>
      have hprogress := Binder.progress_eq_of_unread h
      have hmetrics : b'.metrics = b.metrics := congrArg Progress.metrics hprogress
      refine ⟨(congrArg Binder.capture h).trans hb, ?_⟩
      rw [hprogress, hmetrics, Content.ownText, String.append_empty]
      rfl
  | text content rest ih =>
    have hm := characters_of_not_capturing content hb
    have hrest := ih (by rw [hm, hb]) h.behind_text
    refine ⟨hrest.capture, ?_⟩
    rw [hrest.progress, hm, Content.ownText, ← String.append_assoc]
    rfl
  | element tag inner closing rest inner_ih rest_ih =>
    obtain ⟨m, p, gs, rfl, hrest, hcapture, hprogress⟩ := h.passage hx inner_ih hb
    have hsettles := rest_ih hcapture hrest
    have htext : m.text = b.text := congrArg Progress.text hprogress
    have hcalls : m.calls = _ := congrArg Progress.calls hprogress
    refine ⟨hsettles.capture, ?_⟩
    rw [hsettles.progress, hprogress, htext, hcalls, Content.ownText, List.map_append,
      List.reverse_append, List.append_assoc]

/-- What stands in front of an element and behind it, and where its calls are among all calls. An
element inside a captured node makes none. -/
theorem exists_passage (hx : x.Quiet) {earlier later : List DocumentEvent} {tag : StartTag}
    {inner : Content} {closing : EndTag}
    (h : Delivered x (earlier ++ .start tag :: (inner.events ++ .close closing :: later)) b fs b') :
    ∃ m m' ahead behind, Delivered x earlier b ahead m ∧ Delivered x later m' behind b' ∧
      (m.capture.isSome = true → fs = ahead ++ behind) ∧
      (m.capture = none →
        ∃ p : Passage x tag inner closing m m', fs = ahead ++ p.firings ++ behind) := by
  obtain ⟨m, ahead, rest, rfl, hearlier, hrest⟩ := h.split
  cases hcapture : m.capture with
  | some own =>
    obtain ⟨m', hlater⟩ := hrest.captured_element hcapture
    exact ⟨m, m', ahead, rest, hearlier, hlater, fun _ => rfl, by rw [hcapture]; exact nofun⟩
  | none =>
    obtain ⟨m', p, behind, rfl, hlater, -⟩ :=
      hrest.passage hx (fun hb h => h.settles hx inner hb) hcapture
    exact ⟨m, m', ahead, behind, hearlier, hlater, by rw [hcapture]; exact nofun,
      fun _ => ⟨p, (List.append_assoc ..).symm⟩⟩

end Delivered

end XmlBinding
