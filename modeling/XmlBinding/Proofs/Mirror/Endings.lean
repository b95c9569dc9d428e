import XmlBinding.Proofs.Finish
import XmlBinding.Proofs.Mirror.Documents

/-!
# How documents end

Between two documents a binder is idle: nothing is left on its stacks, no element is open, and its
matcher is the one that it was set up with. A document that has closed all its elements ends so, and
one that failed ends so too, as it is abandoned. Two related binders come to the same end.
-/
namespace XmlBinding

/-! ### Decorations that a failure leaves -/

theorem Dressed.core_eq {m first second : Matcher (RuleRef Empty)} {n : Nat}
    (h : Dressed m n first second) : first.core = m.core ∧ second.core = m.core := by
  induction h with
  | zero => exact ⟨rfl, rfl⟩
  | succ h place config id id' ih => exact ih

/-! ### Idle binders -/

/-- A binder between two documents. Decorations belong to the rules of open elements, so none is in
place. -/
structure Binder.Idle (b : Binder Empty) : Prop where
  stack : b.stack = []
  params : b.params = []
  named : ∀ name, b.named.items name = []
  path : b.path = ""
  outerPaths : b.outerPaths = []
  matched : b.matched = []
  outerTexts : b.outerTexts = []
  capture : b.capture = none
  spaces : b.spaces = fun _ => []
  undecorated : b.matcher.undecorated? = none

/-- Two idle binders that are set up alike. The second one has the objects of the ground in front of
those of the first, and the root of the ground where the first one has none. -/
structure Settled (g : Ground) (s b : Binder Empty) : Prop where
  idle_first : s.Idle
  idle_second : b.Idle
  matcher_first : s.matcher = g.matcher
  matcher_second : b.matcher = g.matcher
  setup_first : s.setup = g.setup
  setup_second : b.setup = g.setup
  root : b.root = (s.root.map (Value.rename g.objects.place)).or g.root
  heap : b.heap = g.objects.behind s.heap

/-- The two have counted the same calls and made the same ones, but for the identities of rules
that were made while the document was read. -/
structure SameRecord (s b : Binder Empty) : Prop where
  calls : b.calls.map Call.anonymous = s.calls.map Call.anonymous
  metrics : b.metrics = s.metrics

namespace Binder

variable (b : Binder Empty)

/-- What a document finds in this binder. -/
def ground : Ground := ⟨b.matcher, b.setup, b.heap, b.root⟩

/-- The binder as it would be without the documents before: without their objects and their root. -/
def unused : Binder Empty := { b with heap := {}, root := none }

variable {b}

theorem Idle.unused (h : b.Idle) : b.unused.Idle := { h with }

/-- A binder that was used and one that was not, set up alike. -/
theorem Idle.settled {c : Binder Empty} (hc : c.Idle) (hb : b.Idle)
    (hmatcher : b.matcher = c.matcher) (hsetup : b.setup = c.setup) :
    Settled b.ground c.unused b where
  idle_first := hc.unused
  idle_second := hb
  matcher_first := hmatcher.symm
  matcher_second := rfl
  setup_first := hsetup.symm
  setup_second := rfl
  root := rfl
  heap := b.heap.behind_empty.symm

end Binder

/-! ### From the start to the end -/

theorem Binder.startDocument_eq {κ : Type} (b : Binder κ) : b.startDocument =
    { b with metrics := {}, calls := [], journal := b.startDocument.journal } := by
  unfold startDocument
  rw [note_eq]

/-- Both binders forget the record of the document before, and are at the same place. -/
theorem Settled.mirrors {g : Ground} {s b : Binder Empty} (h : Settled g s b)
    (position : Option Position) :
    Mirrors g ⟨0, fun _ => []⟩ { s with position, metrics := {}, calls := [] }
      { b with position, metrics := {}, calls := [] } := by
  obtain ⟨hs, hb⟩ := And.intro h.idle_first h.idle_second
  have hmatcher : Dressed g.matcher 0 s.matcher b.matcher := by
    rw [h.matcher_first, h.matcher_second]
    exact .zero
  have hspaces : b.spaces = s.spaces := hb.spaces.trans hs.spaces.symm
  exact {
    outline := by
      simp only [Binder.outline, hs.path, hb.path, hs.outerPaths, hb.outerPaths, hs.matched,
        hb.matched, hs.outerTexts, hb.outerTexts, hs.capture, hb.capture]
      exact congrArg (Outline.mk _ _ _ _ _ · _ _ _) hspaces
    spaces := hs.spaces
    setup_first := h.setup_first
    setup_second := h.setup_second
    matcher := hmatcher
    stack := by rw [hs.stack, hb.stack]; rfl
    params := by rw [hs.params, hb.params]; rfl
    named := fun name => by rw [hs.named, hb.named]; rfl
    root := h.root
    rooted := fun hne => absurd hs.stack hne
    heap := h.heap }

/-- The start of a document: no element is open, and no label stands for anything. -/
theorem Settled.inside {g : Ground} {s b : Binder Empty} (h : Settled g s b)
    (position : Option Position) :
    Inside g [] { s with position }.startDocument { b with position }.startDocument := by
  have hs := h.idle_first
  have hmirrors := h.mirrors position
  rw [Binder.startDocument_eq { s with position }, Binder.startDocument_eq { b with position }]
  refine ⟨fun _ => [], ⟨?_, ?_, ?_⟩, rfl⟩
  · have hzero : decorations s.matched = 0 := by
      rw [hs.matched]
      rfl
    change Mirrors g ⟨decorations s.matched, _⟩ _ _
    rw [hzero]
    exact { hmirrors with }
  · change s.outerTexts.length = s.matched.length
    rw [hs.outerTexts, hs.matched]
    rfl
  · change 0 = s.matched.length + Capture.inside s.capture
    rw [hs.matched, hs.capture]
    rfl

namespace Mirrors

variable {g : Ground} {i : Stage} {s b : Binder Empty}

theorem sameRecord (h : Mirrors g i s b) : SameRecord s b :=
  ⟨congrArg Outline.calls h.outline, congrArg Outline.metrics h.outline⟩

theorem noteLeftover (h : Mirrors g i s b) : Mirrors g i s.noteLeftover b.noteLeftover := by
  unfold Binder.noteLeftover
  rw [h.stack, List.length_map]
  split
  · exact h.note ..
  · exact h

theorem clear (h : Mirrors g i s b) : Mirrors g i s.clear b.clear where
  outline := by
    change { b.outline with
        path := "", outerPaths := [], matched := [], pending := [], capture := none } =
      { s.outline with
        path := "", outerPaths := [], matched := [], pending := [], capture := none }
    rw [h.outline]
  spaces := h.spaces
  setup_first := h.setup_first
  setup_second := h.setup_second
  matcher := h.matcher
  stack := rfl
  params := rfl
  named _ := rfl
  root := h.root
  rooted hne := absurd rfl hne
  heap := h.heap

/-- Without decorations and bindings, cleared binders are idle. -/
theorem settled_clear (hg : g.matcher.undecorated? = none)
    (h : Mirrors g ⟨0, fun _ => []⟩ s b) : Settled g s.clear b.clear := by
  have hmatcher : ∀ {n first second}, n = 0 → Dressed g.matcher n first second →
      first = g.matcher ∧ second = g.matcher := by
    rintro n first second rfl ⟨⟩
    exact ⟨rfl, rfl⟩
  obtain ⟨hfirst, hsecond⟩ := hmatcher rfl h.matcher
  have hidle : ∀ c : Binder Empty, c.matcher = g.matcher → c.spaces = (fun _ => []) →
      c.clear.Idle := fun c hc hspaces =>
    ⟨rfl, rfl, fun _ => rfl, rfl, rfl, rfl, rfl, rfl, hspaces, (congrArg _ hc).trans hg⟩
  have hspaces : b.spaces = fun _ => [] :=
    (congrArg Outline.spaces h.outline).trans h.spaces
  exact ⟨hidle s hfirst h.spaces, hidle b hsecond hspaces, hfirst, hsecond, h.setup_first,
    h.setup_second, h.root, h.heap⟩

/-- However far the two have come, they are idle once they are abandoned. -/
theorem settled_abandon (hg : g.matcher.undecorated? = none) (h : Mirrors g i s b) :
    Settled g s.abandon b.abandon := by
  obtain ⟨hfirst, hsecond⟩ := h.matcher.core_eq
  rw [Matcher.core_eq_self hg] at hfirst hsecond
  have hdressed : Dressed g.matcher 0 s.matcher.core b.matcher.core := by
    rw [hfirst, hsecond]
    exact .zero
  rw [s.abandon_eq, b.abandon_eq]
  refine settled_clear hg { h with outline := ?_, spaces := rfl, matcher := hdressed }
  exact congrArg (fun o : Outline => { o with spaces := fun _ => [] }) h.outline

theorem sameRecord_abandon (h : Mirrors g i s b) : SameRecord s.abandon b.abandon := by
  rw [s.abandon_eq, b.abandon_eq]
  exact ⟨h.sameRecord.calls, h.sameRecord.metrics⟩

end Mirrors

open XmlBinding.Action Document

variable {g : Ground} {s b : Binder Empty}

/-- Behind its last end tag a document is finished by all rules. -/
theorem Inside.endDocument (hg : g.matcher.undecorated? = none) (h : Inside g [] s b) :
    Together id (fun _ s b => Settled g s b ∧ SameRecord s b) (Related g)
      (endDocument .none s) (endDocument .none b) := by
  obtain ⟨spaces, halong, hsettles⟩ := h
  obtain rfl : spaces = fun _ => [] := hsettles
  have hdepth := halong.depth_eq
  have hmatched : s.matched = [] :=
    List.length_eq_zero_iff.mp (Nat.add_eq_zero_iff.mp hdepth.symm).1
  have hmirrors : Mirrors g ⟨0, fun _ => []⟩ s b := by
    have hbefore := halong.mirrors
    rw [hmatched] at hbefore
    exact hbefore
  -- No decoration is left, so both ask one matcher for the rules to finish.
  have hnoted := hmirrors.noteLeftover
  obtain ⟨hfirst, hsecond⟩ := hnoted.matcher.rules_eq
  unfold XmlBinding.endDocument
  rw [modify_bind_run, modify_bind_run, get_bind_run, get_bind_run, hfirst, hsecond]
  have hfinish : Mirrored g ⟨0, fun _ => []⟩ ⟨0, fun _ => []⟩ id
      (callRules .none .finish (distinctRules g.matcher.rules))
      (callRules .none .finish (distinctRules g.matcher.rules)) :=
    mirrored_callRules (fun _ => _) (fun _ _ => follows_pure ()) rfl
  refine (hfinish.together _ _ hnoted).attempt.bind fun r s' b' hr => ?_
  cases r with
  | ok _ => exact .ok ⟨(hr.note ..).settled_clear hg, (hr.note ..).clear.sameRecord⟩
  | error cause =>
    obtain ⟨j, hr⟩ := hr
    exact .error ⟨j, (hr.note ..).clear⟩

namespace Settled

theorem run (hg : g.Closed) (hplain : g.matcher.undecorated? = none) (h : Settled g s b)
    (text : List Char) :
    Together id (fun _ s b => Settled g s b ∧ SameRecord s b) (Related g)
      (run .none text s) (run .none text b) := by
  have hoptions : b.options = s.options :=
    congrArg Setup.options (h.setup_second.trans h.setup_first.symm)
  unfold Document.run
  rw [get_bind_run, get_bind_run, hoptions, modify_bind_run, modify_bind_run]
  refine ((h.inside _).handleAll hg ..).bind fun opened s' b' hopen => ?_
  cases opened with
  | nil => exact hopen.endDocument hplain
  | cons element outer => exact .error hopen.related

/-- **Two idle binders read a document alike**, and are idle again behind it. The second one answers
the root of the first one, or its own root where the document puts nothing on the stack. -/
theorem parse (hg : g.Closed) (hplain : g.matcher.undecorated? = none) (h : Settled g s b)
    (text : String) :
    Together (fun r => (r.map (Value.rename g.objects.place)).or g.root)
      (fun r s b => Settled g s b ∧ SameRecord s b ∧ s.root = r)
      (fun s b => Settled g s b ∧ SameRecord s b)
      (XmlBinding.parse .none text s) (XmlBinding.parse .none text b) := by
  refine (h.run hg hplain text.toList).attempt.bind fun r s' b' hr => ?_
  cases r with
  | ok _ =>
    obtain ⟨hsettled, hrecord⟩ := hr
    change Together _ _ _ (.ok s'.root s') (.ok b'.root b')
    rw [hsettled.root]
    exact .ok ⟨hsettled, hrecord, rfl⟩
  | error cause =>
    obtain ⟨i, hr⟩ := hr
    exact .error ⟨hr.settled_abandon hplain, hr.sameRecord_abandon⟩

end Settled

end XmlBinding
