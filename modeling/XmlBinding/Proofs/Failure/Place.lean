import XmlBinding.Proofs.Lockstep
import XmlBinding.Proofs.Scene
import XmlBinding.Proofs.Trace.Held
import XmlBinding.Proofs.Trace.Offsets

/-!
# The place of a failure

A rule that fails is called for an element that is open in the text, at one of its tags. The binder
then has the path of this element, since reader and binder are in step, and the position of the tag,
since rules set none. All calls in front of the one that fails have got through, each of them on the
binder that the one before it left.
-/
namespace XmlBinding

open Markup (Token)

variable {κ γ : Type} {x : Extension κ}

/-! ### What calls leave alone -/

/-- Where the document is, with the position that was set last. -/
def Binder.bearings (b : Binder κ) : Location κ × Option Position := (b.location, b.position)

namespace Binder

theorem position_note (b : Binder κ) (level : Level) (channel : Channel) (text : String) :
    (b.note level channel text).position = b.position := by rw [note_eq]

theorem bearings_recordCall (x : Extension κ) (cb : Callback) (ref : RuleRef κ) (b : Binder κ) :
    (b.recordCall x cb ref).bearings = b.bearings := by
  refine Prod.ext (b.location_recordCall x cb ref) ?_
  change (b.recordCall x cb ref).position = b.position
  unfold recordCall
  split
  · rfl
  · exact b.position_note ..

theorem position_opened (b : Binder κ) (tag : StartTag) (found : List (RuleRef κ)) :
    (b.opened x tag found).position = b.position := by
  unfold opened noteRules enter
  exact position_note ..

theorem position_closing (b : Binder κ) (outer : List (List (RuleRef κ))) :
    (b.closing outer).position = b.position := by
  have hend : b.endCapture.position = b.position := by
    unfold endCapture
    split
    · rw [push_eq]
    · rfl
  unfold closing unmatch
  exact (position_note ..).trans hend

theorem position_bindName (b : Binder κ) (label uri : String) :
    (b.bindName label uri).position = b.position := by
  rw [bindName_eq]

end Binder

/-- Rules of the user's own that deliver no events, neither clear nor reset the binder and set no
position, even when they fail. Calls are recorded by events only. -/
structure Extension.Discreet (x : Extension κ) : Prop where
  bearings : ∀ rule cb, (x.fire rule cb).Keeps Binder.bearings
  calls : x.KeepsCalls
  fresh : ∀ {rule cb b b'}, x.fire rule cb b = .ok () b' → Capture.Fresh b.capture →
    Capture.Fresh b'.capture

theorem Extension.discreet_none : Extension.none.Discreet := ⟨nofun, nofun, nofun⟩

theorem Extension.Discreet.aloof (hx : x.Discreet) : x.Aloof :=
  ⟨fun h => congrArg Prod.fst ((hx.bearings _ _).of_ok h), hx.fresh⟩

theorem RuleRef.bearings_fire (hx : x.Discreet) (ref : RuleRef κ) (cb : Callback) :
    (ref.fire x cb).Keeps Binder.bearings := by
  obtain ⟨id, rule | rule⟩ := ref
  · exact StandardRule.keeps_fire_aside (fun _ => rfl) (fun _ => rfl) (fun _ _ _ => rfl)
      (fun _ _ => rfl) rule cb
  · exact hx.bearings rule cb

theorem Called.bearings (hx : x.Discreet) {cb : Callback} {refs : List (RuleRef κ)}
    {b b' : Binder κ} {fs : List (Firing κ)} (h : Called x cb refs b fs b') :
    b'.bearings = b.bearings :=
  h.keeps (fun ref _ _ => (RuleRef.bearings_fire hx ref cb).of_ok) (Binder.bearings_recordCall x cb)

/-! ### The calls on the way -/

/-- The calls on the way from one binder to another. All of them got through, each found what the one
before it left, and they are on the record. -/
structure Ran (x : Extension κ) (b : Binder κ) (fs : List (Firing κ)) (b' : Binder κ) : Prop where
  fires : ∀ f ∈ fs, f.Fires x
  linked : Linked Binder.held b.held fs b'.held
  calls : b'.calls = (fs.map Firing.call).reverse ++ b.calls

namespace Ran

variable {b m b' : Binder κ} {fs gs : List (Firing κ)}

theorem trans (h : Ran x b fs m) (h' : Ran x m gs b') : Ran x b (fs ++ gs) b' := by
  refine ⟨List.forall_mem_append.mpr ⟨h.fires, h'.fires⟩, h.linked.append h'.linked, ?_⟩
  rw [h'.calls, h.calls, List.map_append, List.reverse_append, List.append_assoc]

/-- On the way between two binders that differ in nothing that calls work on there was no call. -/
theorem of_same (hheld : b'.held = b.held) (hcalls : b'.calls = b.calls) : Ran x b [] b' := by
  refine ⟨List.forall_mem_nil _, ?_, hcalls⟩
  rw [hheld]
  exact .nil _

theorem of_unread (h : b'.unread = b.unread) : Ran x b [] b' :=
  .of_same (Binder.held_of_unread h) (Binder.calls_of_unread h)

end Ran

theorem Called.ran (hx : x.KeepsCalls) {cb : Callback} {refs : List (RuleRef κ)} {b b' : Binder κ}
    {fs : List (Firing κ)} (h : Called x cb refs b fs b') : Ran x b fs b' :=
  ⟨h.fires, h.linked, h.recorded hx⟩

theorem Delivered.ran (hx : x.KeepsCalls) {es : List DocumentEvent} {b b' : Binder κ}
    {fs : List (Firing κ)} (h : Delivered x es b fs b') : Ran x b fs b' :=
  ⟨h.fires, h.linked, h.recorded hx⟩

/-! ### Runs that end early -/

/-- Where rules are called: in which phases, inside which elements, the innermost first, and at which
position. -/
structure Spot where
  phases : List Phase
  names : List String
  position : Option Position

/-- A call with this binder is made at the spot. -/
structure Spot.Holds (spot : Spot) (cb : Callback) (b : Binder κ) : Prop where
  phase : cb.phase ∈ spot.phases
  path : b.path = pathOf spot.names
  position : b.position = spot.position

theorem Spot.holds_of_bearings {spot : Spot} {cb : Callback} {b s : Binder κ}
    (hs : s.bearings = b.bearings) (h : spot.Holds cb b) : spot.Holds cb s :=
  ⟨h.phase, (congrArg (·.1.path) hs).trans h.path, (congrArg Prod.snd hs).trans h.position⟩

/-- The failure of a rule that is reported. -/
def Halt.failure? : Halt BindError → Option RuleFailure
  | .error (.rule failure) => some failure
  | _ => none

/-- How a run ends early: between two calls with no failure to report, or with a call at the spot that
does not get through. -/
inductive Broken (x : Extension κ) (spot : Spot) (b : Binder κ) : Halt BindError → Binder κ → Prop
  | between {fs : List (Firing κ)} {halt : Halt BindError} {b' : Binder κ} (h : Ran x b fs b')
      (hhalt : halt.failure? = none) : Broken x spot b halt b'
  | call {fs : List (Firing κ)} {m b' : Binder κ} {cb : Callback} {ref : RuleRef κ}
      {halt : Halt BindError} (h : Ran x b fs m) (hspot : spot.Holds cb m)
      (hfails : Fails x cb ref m halt b') : Broken x spot b halt b'

namespace Broken

variable {spot spot' : Spot} {b m b' : Binder κ} {fs : List (Firing κ)} {halt : Halt BindError}

theorem lead (h : Ran x b fs m) (hm : Broken x spot m halt b') : Broken x spot b halt b' := by
  cases hm with
  | between hrest hhalt => exact .between (h.trans hrest) hhalt
  | call hrest hspot hfails => exact .call (h.trans hrest) hspot hfails

/-- The same place with more phases. -/
theorem widen (h : Broken x spot b halt b') (hphases : spot.phases ⊆ spot'.phases)
    (hnames : spot.names = spot'.names) (hposition : spot.position = spot'.position) :
    Broken x spot' b halt b' := by
  cases h with
  | between hrest hhalt => exact .between hrest hhalt
  | call hrest hspot hfails =>
    exact .call hrest ⟨hphases hspot.phase, hnames ▸ hspot.path, hposition ▸ hspot.position⟩
      hfails

theorem of_callRules (hx : x.Discreet) {cb : Callback} {refs : List (RuleRef κ)}
    (hspot : spot.Holds cb b) (h : callRules x cb refs b = .error halt b') :
    Broken x spot b halt b' := by
  obtain ⟨front, ref, back, fs, m, -, hcalled, hfails⟩ := fails_of_callRules h
  exact .call (hcalled.ran hx.calls) (Spot.holds_of_bearings (hcalled.bearings hx) hspot) hfails

end Broken

/-! ### Events -/

namespace InStep

variable {base : List String} {due : List EndTag} {b b' : Binder κ} {halt : Halt BindError}

/-- A start tag that does not get through: its rules are called inside its element. -/
theorem broken_of_start (hx : x.Discreet) (h : InStep base due b) {tag : StartTag}
    (hrun : deliver x (.start tag) b = .error halt b') :
    Broken x ⟨[.start], tag.name :: due.map EndTag.name, b.position⟩ b halt b' := by
  cases hb : b.capture with
  | some c => cases (startElement_captured x tag b c hb).symm.trans hrun
  | none =>
    cases hfound : b.rulesAt? tag with
    | none =>
      rw [start_eq_crash tag hb hfound] at hrun
      cases hrun
      exact .between (.of_same (Binder.held_note ..) (b.calls_enter tag.name)) rfl
    | some found =>
      rw [start_eq_callRules tag hb hfound] at hrun
      have hpath : b.path = pathOf (due.map EndTag.name) := by
        have hinside := h.path
        rw [hb] at hinside
        exact hinside
      refine .lead (.of_same (b.held_opened tag found) (b.calls_enter tag.name))
        (.of_callRules hx ⟨List.mem_singleton_self _, ?_, b.position_opened tag found⟩ hrun)
      rw [pathOf, ← hpath]
      exact congrArg Location.path (b.location_opened (x := x) tag found)

/-- An end tag that does not get through: its rules are called inside its element. -/
theorem broken_of_close (hx : x.Discreet) {tag : EndTag} (h : InStep base (tag :: due) b)
    (hrun : deliver x (.close tag) b = .error halt b') :
    Broken x ⟨[.body, .close], (tag :: due).map EndTag.name, b.position⟩ b halt b' := by
  cases hc : b.capture.bind (·.close?) with
  | some c' =>
    obtain ⟨c, hb, hc'⟩ := Option.bind_eq_some_iff.mp hc
    cases (endElement_captured x tag b c c' hb hc').symm.trans hrun
  | none =>
    cases hm : b.matched with
    | nil =>
      rw [close_eq_unbalanced tag hc hm] at hrun
      cases hrun
      exact .between (.of_same b.held_endCapture (congrArg (·.1.calls) b.course_endCapture)) rfl
    | cons found outer =>
      rw [close_eq_closeRules tag hc hm] at hrun
      have hpath := h.path
      rw [Capture.inside_of_bind_close? hc] at hpath
      have hholds : ∀ (cb : Callback) (s : Binder κ), s.bearings = (b.closing outer).bearings →
          cb.phase ∈ [Phase.body, Phase.close] → Spot.Holds ⟨[.body, .close],
            (tag :: due).map EndTag.name, b.position⟩ cb s := fun _ _ hs hphase =>
        Spot.holds_of_bearings hs
          ⟨hphase, (congrArg Location.path (b.location_closing outer)).trans hpath,
            b.position_closing outer⟩
      have hclosing : Ran x b [] (b.closing outer) :=
        .of_same (b.held_closing outer) (b.calls_closing outer)
      refine .lead hclosing ?_
      unfold closeRules at hrun
      cases hbodies : callRules x (.body tag.uri tag.name (b.expandText b.text)) found
          (b.closing outer) with
      | error halt' m =>
        rw [Action.bind_run_of_error hbodies] at hrun
        cases hrun
        exact .of_callRules hx (hholds _ _ rfl List.mem_cons_self) hbodies
      | ok a m =>
        obtain ⟨fs, htold⟩ := callRules_eq_ok.mp hbodies
        rw [Action.bind_run_of_ok hbodies, Action.modify_bind_run] at hrun
        refine .lead (m := m.resumeText) ((htold.ran hx.calls).trans (.of_same rfl rfl)) ?_
        cases hends : callRules x (.close tag.uri tag.name) found.reverse m.resumeText with
        | error halt' m' =>
          rw [Action.bind_run_of_error hends] at hrun
          cases hrun
          exact .of_callRules hx (hholds _ m.resumeText (htold.bearings hx)
            (List.mem_cons_of_mem _ List.mem_cons_self)) hends
        | ok a m' =>
          rw [Action.bind_run_of_ok hends] at hrun
          cases hrun

end InStep

/-- A start tag that gets through sets no position. -/
theorem Answers.position_start (hx : x.Discreet) {tag : StartTag} {b b' : Binder κ}
    {fs : List (Firing κ)} (h : Answers x (.start tag) b fs b') : b'.position = b.position := by
  cases h with
  | startInside => rfl
  | @start _ _ _ found _ _ _ hcalled =>
    exact (congrArg Prod.snd (hcalled.bearings hx)).trans (b.position_opened (x := x) tag found)

/-! ### Names -/

namespace Document

/-- The name of an element in paths. -/
def nameOf (aware : Bool) (name : String) : String := elementName (Generic.nameIn aware name) name

/-- The reader knows the elements by the names that their tags have in paths. -/
def Named (aware : Bool) (opened : List OpenElement) : Prop :=
  opened.map (·.endTag.name) = (opened.map (·.qualifiedName)).map (nameOf aware)

end Document

/-- End tags have the names of their start tags. -/
theorem Pairs.named {aware : Bool} {rs : List Generic.ReaderEvent} {due due' : List EndTag}
    {es : List DocumentEvent} (h : Pairs due es due') (hrs : List.Forall₂ (Conveys aware) rs es)
    (hdue : ∀ tag ∈ due, tag.name = Document.nameOf aware tag.qualifiedName) :
    ∀ tag ∈ due', tag.name = Document.nameOf aware tag.qualifiedName := by
  induction h generalizing rs with
  | nil => exact hdue
  | start _ ih =>
    cases hrs with
    | cons hfirst hrest =>
      cases hfirst with
      | start hqualified hname _ =>
        refine ih hrest (List.forall_mem_cons.mpr ⟨?_, hdue⟩)
        rw [← hqualified] at hname
        exact hname
  | text _ ih =>
    cases hrs with
    | cons _ hrest => exact ih hrest hdue
  | close _ ih =>
    cases hrs with
    | cons _ hrest => exact ih hrest (List.forall_mem_cons.mp hdue).2

namespace Document

variable {aware : Bool} {here : Position} {opened opened' : List OpenElement} {b b' : Binder κ}
  {base : List String} {halt : Halt BindError}

theorem named_iff : Named aware opened ↔
    ∀ tag ∈ opened.map OpenElement.endTag, tag.name = nameOf aware tag.qualifiedName := by
  unfold Named
  rw [List.map_map, List.map_inj_left, List.forall_mem_map]
  rfl

theorem named_of_handled {rs : List Generic.ReaderEvent} {es : List DocumentEvent}
    {fs : List (Firing κ)} (h : Handled x aware rs opened b opened' b' es fs)
    (hopened : Named aware opened) : Named aware opened' :=
  named_iff.mpr (h.pairs.named h.conveys (named_iff.mp hopened))

end Document

/-! ### Tokens -/

namespace Markup.Token

/-- The phases in which a token calls the rules of an element. -/
def phases : Token → List Phase
  | .start _ _ => [.start]
  | .empty _ _ => [.start, .body, .close]
  | .close => [.body, .close]
  | _ => []

/-- The qualified names of the elements that a token is inside of, its own element included, the
innermost first. -/
def namesAt (opened : List String) : Token → List String
  | .start name _ | .empty name _ => name :: opened
  | _ => opened

end Markup.Token

namespace Document

theorem broken_of_startTag (hx : x.Discreet) (h : InStep base (opened.map OpenElement.endTag) b)
    (hnamed : Named aware opened) {name : String} {attrs : List (String × String)}
    (hrun : start x aware here name attrs opened b = .error halt b') :
    Broken x ⟨[.start], (name :: opened.map (·.qualifiedName)).map (nameOf aware), b.position⟩ b halt
      b' := by
  have hunread : (resolveTag aware here name attrs).Keeps (Binder.unread (κ := κ)) :=
    keeps_resolveTag Binder.unread_bindName name attrs
  have hposition : (resolveTag aware here name attrs).Keeps (Binder.position (κ := κ)) :=
    keeps_resolveTag Binder.position_bindName name attrs
  unfold start at hrun
  cases hresolve : resolveTag aware here name attrs b with
  | error halt' m =>
    rw [Action.bind_run_of_error hresolve] at hrun
    cases hrun
    have hm := hunread.keepsAt b
    rw [Action.KeepsAt, Action.after_of_error hresolve] at hm
    obtain ⟨fault, rfl⟩ := resolveTag_eq_error hresolve
    exact .between (.of_unread hm) rfl
  | ok r m =>
    obtain ⟨element, attributes⟩ := r
    rw [Action.bind_run_of_ok hresolve] at hrun
    have hm := hunread.of_ok hresolve
    obtain ⟨-, -, hname, -⟩ := resolveTag_eq_ok hresolve
    let tag : StartTag := ⟨element.uri, element.localName, element.qualifiedName, attributes⟩
    change (deliver x (.start tag) >>= fun _ => pure (element :: opened)) m = _ at hrun
    cases hstart : deliver x (.start tag) m with
    | ok a m' =>
      rw [Action.bind_run_of_ok hstart] at hrun
      cases hrun
    | error halt' m' =>
      rw [Action.bind_run_of_error hstart] at hrun
      cases hrun
      refine .lead (.of_unread hm) (((h.of_unread hm).broken_of_start hx hstart).widen
        (List.Subset.refl _) ?_ (hposition.of_ok hresolve))
      rw [List.map_cons, List.map_map]
      exact congrArg₂ List.cons hname hnamed

theorem broken_of_endTag (hx : x.Discreet) (h : InStep base (opened.map OpenElement.endTag) b)
    (hnamed : Named aware opened) (hrun : close x here opened b = .error halt b') :
    Broken x ⟨[.body, .close], (opened.map (·.qualifiedName)).map (nameOf aware), b.position⟩ b halt
      b' := by
  unfold close at hrun
  cases opened with
  | nil =>
    obtain ⟨⟨fault, rfl⟩, rfl⟩ := liftFault_eq_error hrun
    exact .between (.of_unread rfl) rfl
  | cons element outer =>
    change (deliver x (.close element.endTag) >>= _) b = _ at hrun
    cases hclose : deliver x (.close element.endTag) b with
    | ok a m =>
      rw [Action.bind_run_of_ok hclose] at hrun
      cases hrun
    | error halt' m =>
      rw [Action.bind_run_of_error hclose] at hrun
      cases hrun
      refine (h.broken_of_close hx hclose).widen (List.Subset.refl _) ?_ rfl
      change ((element :: outer).map OpenElement.endTag).map EndTag.name = _
      rw [List.map_map]
      exact hnamed

/-- A start tag that gets through sets no position. -/
theorem position_of_start (hx : x.Discreet) {name : String} {attrs : List (String × String)}
    (h : start x aware here name attrs opened b = .ok opened' b') : b'.position = b.position := by
  obtain ⟨⟨element, attributes⟩, m, hresolve, h⟩ := Action.bind_eq_ok.mp h
  obtain ⟨⟨⟩, m', hstart, ⟨⟩⟩ := Action.bind_eq_ok.mp h
  let tag : StartTag := ⟨element.uri, element.localName, element.qualifiedName, attributes⟩
  obtain ⟨fs, hanswers⟩ := answers_of_start (show deliver x (.start tag) m = .ok () _ from hstart)
  exact (hanswers.position_start hx).trans
    ((keeps_resolveTag Binder.position_bindName name attrs).of_ok hresolve)

/-- A token that does not get through: the rules that it calls are called inside its element. -/
theorem broken_of_handle (hx : x.Discreet) (h : InStep base (opened.map OpenElement.endTag) b)
    (hnamed : Named aware opened) {token : Token}
    (hrun : handle x aware here opened token b = .error halt b') :
    Broken x ⟨token.phases, (token.namesAt (opened.map (·.qualifiedName))).map (nameOf aware),
      b.position⟩ b halt b' := by
  unfold handle at hrun
  cases token with
  | start name attrs => exact broken_of_startTag hx h hnamed hrun
  | empty name attrs =>
    dsimp only at hrun
    cases hstart : start x aware here name attrs opened b with
    | error halt' m =>
      rw [Action.bind_run_of_error hstart] at hrun
      cases hrun
      exact (broken_of_startTag hx h hnamed hstart).widen (by simp [Markup.Token.phases]) rfl rfl
    | ok mid m =>
      rw [Action.bind_run_of_ok hstart] at hrun
      obtain ⟨⟨es, fs, hhandled⟩, hnames⟩ := handled_start hstart
      refine .lead (hhandled.delivered.ran hx.calls)
        ((broken_of_endTag hx (hhandled.inStep hx.aloof h) (named_of_handled hhandled hnamed)
          hrun).widen (by simp [Markup.Token.phases]) ?_ (position_of_start hx hstart))
      rw [hnames]
      rfl
  | close => exact broken_of_endTag hx h hnamed hrun
  | text content => cases hrun
  | reference name =>
    dsimp only at hrun
    cases hc : Markup.textReference? name.toList with
    | some c =>
      rw [hc] at hrun
      cases hrun
    | none =>
      rw [hc] at hrun
      obtain ⟨⟨fault, rfl⟩, rfl⟩ := liftFault_eq_error hrun
      exact .between (.of_unread rfl) rfl
  | skipped | finish => cases hrun
  | badTag | broken =>
    obtain ⟨⟨fault, rfl⟩, rfl⟩ := liftFault_eq_error hrun
    exact .between (.of_unread rfl) rfl

end Document

end XmlBinding
