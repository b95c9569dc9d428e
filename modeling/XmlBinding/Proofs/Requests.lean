import XmlBinding.Proofs.Finish
import XmlBinding.Proofs.Lockstep
import XmlBinding.Proofs.Segments

/-!
# Requests

For every open element the binder keeps its rules, the path around it and the text around it. A
start tag adds one of each. An end tag takes the rules away before it calls them, gives the text
back between the bodies and the ends, and takes the path away behind the ends. All that is forgotten
when the document ends or the binder is cleared. A caller may ask for these things in any order, and
the rules that are called meanwhile may ask for them too, and so on. Whatever is asked for, the
binder goes through a sequence of such shifts, and the numbers of the things that are kept follow
from it.
-/
namespace XmlBinding

open Generic (pathInside)

variable {κ : Type} {x : Extension κ}

/-- What may be asked of a binder, by a caller or by a rule. -/
inductive Request
  | event (e : DocumentEvent)
  | endDocument
  | clear
  | reset

def Request.run (x : Extension κ) : Request → Action κ BindError Unit
  | .event e => deliver x e
  | .endDocument => XmlBinding.endDocument x
  | .clear => modify Binder.clear
  | .reset => modify Binder.reset

/-! ### Shifts -/

/-- A step in which the things change that are kept for the open elements. -/
inductive Shift
  /-- A start tag adds its own. -/
  | enter
  /-- An end tag takes its rules away. -/
  | unmatch
  /-- The text around goes on. -/
  | resume
  /-- The path around is back. -/
  | leave
  /-- All is forgotten. -/
  | clear
  deriving DecidableEq

/-- How many things of each kind are kept. -/
structure Sizes where
  depth : Nat := 0
  texts : Nat := 0
  paths : Nat := 0
  deriving DecidableEq

def Sizes.after (k : Sizes) : Shift → Sizes
  | .enter => ⟨k.depth + 1, k.texts + 1, k.paths + 1⟩
  | .unmatch => { k with depth := k.depth - 1 }
  | .resume => { k with texts := k.texts - 1 }
  | .leave => { k with paths := k.paths - 1 }
  | .clear => {}

/-- What is kept for the open elements. -/
def Progress.layers (p : Progress κ) : Location κ × List String :=
  (⟨p.path, p.outerPaths, p.matched⟩, p.outerTexts)

namespace Binder

def layers (b : Binder κ) : Location κ × List String := b.progress.layers

def sizes (b : Binder κ) : Sizes := ⟨b.depth, b.outerTexts.length, b.outerPaths.length⟩

variable {b s : Binder κ}

theorem sizes_congr (h : s.layers = b.layers) : s.sizes = b.sizes := by
  have hsizes := congrArg (fun l : Location κ × List String =>
    (⟨l.1.matched.length, l.2.length, l.1.outerPaths.length⟩ : Sizes)) h
  exact hsizes

theorem sizes_opened (b : Binder κ) (tag : StartTag) (found : List (RuleRef κ)) :
    (b.opened x tag found).sizes = b.sizes.after .enter :=
  congrArg (fun p : Progress κ =>
    (⟨p.matched.length, p.outerTexts.length, p.outerPaths.length⟩ : Sizes))
    (b.progress_opened (x := x) tag found)

theorem sizes_closing {found : List (RuleRef κ)} {outer : List (List (RuleRef κ))}
    (hm : b.matched = found :: outer) : (b.closing outer).sizes = b.sizes.after .unmatch := by
  have hsizes : (b.closing outer).sizes = { b.sizes with depth := outer.length } :=
    congrArg (fun c : Progress κ × Option Capture =>
      (⟨c.1.matched.length, c.1.outerTexts.length, c.1.outerPaths.length⟩ : Sizes))
      (b.course_closing outer)
  have hdepth : b.sizes.depth = outer.length + 1 := congrArg List.length hm
  rw [hsizes, Sizes.after, hdepth, Nat.add_sub_cancel]

theorem sizes_resumeText (b : Binder κ) : b.resumeText.sizes = b.sizes.after .resume := by
  unfold sizes Sizes.after
  rw [← List.length_tail]
  rfl

theorem sizes_leave (b : Binder κ) : b.leave.sizes = b.sizes.after .leave := by
  unfold leave
  split
  · next hnone =>
    unfold sizes Sizes.after
    rw [hnone]
    rfl
  · next hsome =>
    unfold sizes Sizes.after
    rw [hsome]
    rfl

end Binder

/-! ### What requests do -/

/-- What requests do to a binder, with all the shifts. What the rules of a tag ask for stands behind
the shift that led to their calls. Between two requests anything may happen that leaves alone what
is kept for the open elements. -/
inductive Served : Binder κ → List Shift → Binder κ → Prop
  | aside {b b' : Binder κ} (h : b'.layers = b.layers) : Served b [] b'
  | append {b m b' : Binder κ} {front back : List Shift} (hfront : Served b front m)
      (hback : Served m back b') : Served b (front ++ back) b'
  | start {x : Extension κ} {tag : StartTag} {found : List (RuleRef κ)} {b b' : Binder κ}
      {asked : List Shift} (hname : ProperName tag.name)
      (hrules : Served (b.opened x tag found) asked b') : Served b (.enter :: asked) b'
  | close {b m m' : Binder κ} {found : List (RuleRef κ)} {outer : List (List (RuleRef κ))}
      {asked more : List Shift} (hm : b.matched = found :: outer)
      (hbodies : Served (b.closing outer) asked m) (hends : Served m.resumeText more m') :
      Served b (.unmatch :: (asked ++ .resume :: (more ++ [.leave]))) m'.leave
  /-- An end tag that failed in a body. -/
  | body {b m : Binder κ} {found : List (RuleRef κ)} {outer : List (List (RuleRef κ))}
      {asked : List Shift} (hm : b.matched = found :: outer)
      (hbodies : Served (b.closing outer) asked m) : Served b (.unmatch :: asked) m
  /-- An end tag that failed in an end. -/
  | ending {b m m' : Binder κ} {found : List (RuleRef κ)} {outer : List (List (RuleRef κ))}
      {asked more : List Shift} (hm : b.matched = found :: outer)
      (hbodies : Served (b.closing outer) asked m) (hends : Served m.resumeText more m') :
      Served b (.unmatch :: (asked ++ .resume :: more)) m'
  | clear {b b' : Binder κ} (h : b'.layers = b.clear.layers) : Served b [.clear] b'

/-- The numbers follow from the shifts. -/
theorem Served.sizes_eq {b b' : Binder κ} {shifts : List Shift} (h : Served b shifts b') :
    b'.sizes = shifts.foldl Sizes.after b.sizes := by
  induction h with
  | aside h => exact Binder.sizes_congr h
  | append _ _ front_ih back_ih => rw [List.foldl_append, ← front_ih, back_ih]
  | start _ _ ih => rw [ih, Binder.sizes_opened, List.foldl_cons]
  | close hm _ _ bodies_ih ends_ih =>
    rw [Binder.sizes_leave, ends_ih, Binder.sizes_resumeText, bodies_ih, Binder.sizes_closing hm]
    simp only [List.foldl_cons, List.foldl_append, List.foldl_nil]
  | body hm _ ih => rw [ih, Binder.sizes_closing hm, List.foldl_cons]
  | ending hm _ _ bodies_ih ends_ih =>
    rw [ends_ih, Binder.sizes_resumeText, bodies_ih, Binder.sizes_closing hm]
    simp only [List.foldl_cons, List.foldl_append]
  | clear h => exact Binder.sizes_congr h

/-! ### Paths -/

/-- The path is that of these elements, the innermost first, and so are the paths that are kept. -/
structure Surrounded (names : List String) (b : Binder κ) : Prop where
  proper : ∀ name ∈ names, ProperName name
  path : b.path = pathOf names
  outerPaths : b.outerPaths = pathsAround names

namespace Surrounded

variable {names : List String} {b s : Binder κ}

theorem congr (h : Surrounded names b) (hs : s.layers = b.layers) : Surrounded names s := by
  have hlocation : s.location = b.location := congrArg Prod.fst hs
  exact ⟨h.proper, (congrArg Location.path hlocation).trans h.path,
    (congrArg Location.outerPaths hlocation).trans h.outerPaths⟩

theorem nil (hpath : b.path = "") (houter : b.outerPaths = []) : Surrounded [] b :=
  ⟨List.forall_mem_nil _, hpath, houter⟩

theorem opened (h : Surrounded names b) {tag : StartTag} (hname : ProperName tag.name)
    (found : List (RuleRef κ)) : Surrounded (tag.name :: names) (b.opened x tag found) := by
  have hlocation := b.location_opened (x := x) tag found
  constructor
  case proper => exact List.forall_mem_cons.mpr ⟨hname, h.proper⟩
  case path =>
    rw [pathOf, ← h.path]
    exact congrArg Location.path hlocation
  case outerPaths =>
    rw [pathsAround, ← h.path, ← h.outerPaths]
    exact congrArg Location.outerPaths hlocation

theorem closing (h : Surrounded names b) (outer : List (List (RuleRef κ))) :
    Surrounded names (b.closing outer) := by
  have hlocation := b.location_closing outer
  exact ⟨h.proper, (congrArg Location.path hlocation).trans h.path,
    (congrArg Location.outerPaths hlocation).trans h.outerPaths⟩

theorem leave (h : Surrounded names b) : Surrounded names.tail b.leave := by
  have houter := h.outerPaths
  cases names with
  | nil =>
    have hleave : b.leave = b := by
      unfold Binder.leave
      rw [houter]
      rfl
    rwa [hleave]
  | cons name outer =>
    rw [Binder.leave_eq houter]
    exact ⟨fun other hother => h.proper other (List.mem_cons_of_mem _ hother), rfl, rfl⟩

end Surrounded

/-- Whatever is asked for, the path is that of some elements. -/
theorem Served.surrounded {b b' : Binder κ} {shifts : List Shift} (h : Served b shifts b')
    {names : List String} (hb : Surrounded names b) : ∃ names, Surrounded names b' := by
  induction h generalizing names with
  | aside h => exact ⟨names, hb.congr h⟩
  | append _ _ front_ih back_ih =>
    obtain ⟨_, hm⟩ := front_ih hb
    exact back_ih hm
  | start hname _ ih => exact ih (hb.opened hname _)
  | close _ _ _ bodies_ih ends_ih =>
    obtain ⟨_, hm⟩ := bodies_ih (hb.closing _)
    obtain ⟨_, hm'⟩ := ends_ih ⟨hm.proper, hm.path, hm.outerPaths⟩
    exact ⟨_, hm'.leave⟩
  | body _ _ ih => exact ih (hb.closing _)
  | ending _ _ _ bodies_ih ends_ih =>
    obtain ⟨_, hm⟩ := bodies_ih (hb.closing _)
    exact ends_ih ⟨hm.proper, hm.path, hm.outerPaths⟩
  | @clear b b' h =>
    have hlocation : b'.location = b.clear.location := congrArg Prod.fst h
    exact ⟨[], .nil (congrArg Location.path hlocation) (congrArg Location.outerPaths hlocation)⟩

/-! ### What rules ask for -/

/-- Requests with no other shifts than these lead from the one binder to the other. -/
def ServedBy (allowed : Shift → Prop) (b b' : Binder κ) : Prop :=
  ∃ shifts, Served b shifts b' ∧ ∀ s ∈ shifts, allowed s

namespace ServedBy

variable {allowed : Shift → Prop} {b m b' : Binder κ}

theorem of_layers (h : b'.layers = b.layers) : ServedBy allowed b b' :=
  ⟨[], .aside h, List.forall_mem_nil _⟩

theorem trans (h : ServedBy allowed b m) (h' : ServedBy allowed m b') : ServedBy allowed b b' := by
  obtain ⟨front, hfront, hallowed⟩ := h
  obtain ⟨back, hback, hallowed'⟩ := h'
  exact ⟨front ++ back, .append hfront hback, List.forall_mem_append.mpr ⟨hallowed, hallowed'⟩⟩

end ServedBy

/-- However the action ends, short of a crash of the program, all that it does to what is kept for
the open elements is asked for, with no other shifts than these. -/
def Action.Asks {ε α : Type} (allowed : Shift → Prop) (act : Action κ ε α) : Prop :=
  ∀ b, act.Meets b (fun _ b' => ServedBy allowed b b')
    fun halt b' => halt = .crash ∨ ServedBy allowed b b'

theorem Action.Keeps.asks {ε α : Type} {act : Action κ ε α} {allowed : Shift → Prop}
    (h : act.Keeps Binder.layers) : act.Asks allowed := fun b =>
  (Action.keepsAt_iff.mp (h.keepsAt b)).mono (fun _ _ => .of_layers)
    fun _ _ hb => .inr (.of_layers hb)

namespace Action.Asks

variable {ε ε' α β : Type} {allowed : Shift → Prop} {act : Action κ ε α}

theorem bind {f : α → Action κ ε β} (h : act.Asks allowed) (hf : ∀ a, (f a).Asks allowed) :
    (act >>= f).Asks allowed := by
  intro b
  rw [Action.meets_bind]
  refine (h b).mono (fun a m hm => ?_) fun _ _ => id
  exact (hf a m).mono (fun _ _ => hm.trans) fun _ _ => Or.imp_right hm.trans

theorem attempt (h : act.Asks allowed) :
    (act.attempt : Action κ ε' (Except ε α)).Asks allowed := by
  intro b
  rw [Action.meets_attempt]
  refine (h b).mono (fun _ _ => id) fun halt b' hb => ?_
  cases halt with
  | error cause => exact hb.resolve_left nofun
  | crash => exact .inl rfl

end Action.Asks

/-- Rules of the user's own that may deliver events, end the document, clear and reset the binder,
as far as these shifts go, and otherwise leave alone what is kept for the open elements. With no
shift at all they ask for nothing. -/
def Extension.Asks (x : Extension κ) (allowed : Shift → Prop) : Prop :=
  ∀ rule cb, (x.fire rule cb).Asks allowed

variable {allowed : Shift → Prop}

theorem RuleRef.asks_fire (hx : x.Asks allowed) (ref : RuleRef κ) (cb : Callback) :
    (ref.fire x cb).Asks allowed := by
  obtain ⟨id, rule | rule⟩ := ref
  · exact (StandardRule.keeps_fire_aside (fun _ => rfl) (fun _ => rfl) (fun _ _ _ => rfl)
      (fun _ _ => rfl) rule cb).asks
  · exact hx rule cb

theorem Binder.layers_recordCall (cb : Callback) (ref : RuleRef κ) (b : Binder κ) :
    (b.recordCall x cb ref).layers = b.layers :=
  congrArg (·.1.layers) (b.course_recordCall x cb ref)

theorem Called.served (hx : x.Asks allowed) {cb : Callback} {refs : List (RuleRef κ)}
    {b b' : Binder κ} {fs : List (Firing κ)} (h : Called x cb refs b fs b') :
    ServedBy allowed b b' := by
  induction h with
  | nil => exact .of_layers rfl
  | @cons ref _ b _ _ _ hfire _ ih =>
    have hcall := (Action.meets_of_ok hfire).mp (RuleRef.asks_fire hx ref cb _)
    exact ((ServedBy.of_layers (b.layers_recordCall cb ref)).trans hcall).trans ih

/-- A call that fails is reported with its phase. -/
theorem Fails.served (hx : x.Asks allowed) {cb : Callback} {ref : RuleRef κ} {b b' : Binder κ}
    {cause : BindError} (h : Fails x cb ref b (.error cause) b') :
    ServedBy allowed b b' ∧ ∃ failure, cause = .rule failure ∧ failure.phase = cb.phase := by
  cases h with
  | @error cause s hfire =>
    obtain hcrash | hcall := (Action.meets_of_error hfire).mp (RuleRef.asks_fire hx ref cb _)
    · cases hcrash
    · have hnote : (s.noteFailure x cb ref cause).layers = s.layers :=
        congrArg (·.1.layers) (s.course_note ..)
      exact ⟨((ServedBy.of_layers (b.layers_recordCall cb ref)).trans hcall).trans
        (.of_layers hnote), _, rfl, rfl⟩

theorem meets_callRules_served (hx : x.Asks allowed) (cb : Callback) (refs : List (RuleRef κ))
    (b : Binder κ) : (callRules x cb refs).Meets b (fun _ b' => ServedBy allowed b b')
      fun halt b' => ∀ cause, halt = .error cause → ServedBy allowed b b' ∧
        ∃ failure, cause = .rule failure ∧ failure.phase = cb.phase := by
  refine Action.meets_iff.mpr ⟨fun _ b' h => ?_, fun halt b' h => ?_⟩
  · obtain ⟨fs, hcalled⟩ := callRules_eq_ok.mp h
    exact hcalled.served hx
  · rintro cause rfl
    obtain ⟨front, ref, back, fs, m, -, hfront, hfails⟩ := fails_of_callRules h
    obtain ⟨hserved, hreport⟩ := hfails.served hx
    exact ⟨(hfront.served hx).trans hserved, hreport⟩

/-! ### Requests and their answers -/

/-- A request and its answer. -/
abbrev Exchange := Request × Except BindError Unit

/-- The shifts of an exchange. A text shifts nothing, and no more does a tag inside a captured node
or an end tag without a start tag. What the rules ask for in the meantime stands at the places of
their calls. -/
inductive Writes (allowed : Shift → Prop) : Exchange → List Shift → Prop
  | pass (e : DocumentEvent) : Writes allowed (.event e, .ok ()) []
  | unbalanced (tag : EndTag) (name : String) :
      Writes allowed (.event (.close tag), .error (.unbalanced name)) []
  | start (tag : StartTag) (answer : Except BindError Unit) {asked : List Shift}
      (h : ∀ s ∈ asked, allowed s) : Writes allowed (.event (.start tag), answer) (.enter :: asked)
  | close (tag : EndTag) {asked more : List Shift} (h : ∀ s ∈ asked, allowed s)
      (h' : ∀ s ∈ more, allowed s) :
      Writes allowed (.event (.close tag), .ok ())
        (.unmatch :: (asked ++ .resume :: (more ++ [.leave])))
  | body (tag : EndTag) {failure : RuleFailure} {asked : List Shift}
      (hphase : failure.phase = .body) (h : ∀ s ∈ asked, allowed s) :
      Writes allowed (.event (.close tag), .error (.rule failure)) (.unmatch :: asked)
  | ending (tag : EndTag) {failure : RuleFailure} {asked more : List Shift}
      (hphase : failure.phase = .close) (h : ∀ s ∈ asked, allowed s) (h' : ∀ s ∈ more, allowed s) :
      Writes allowed (.event (.close tag), .error (.rule failure))
        (.unmatch :: (asked ++ .resume :: more))
  | endDocument (answer : Except BindError Unit) {asked : List Shift} (h : ∀ s ∈ asked, allowed s) :
      Writes allowed (.endDocument, answer) (asked ++ [.clear])
  | clear : Writes allowed (.clear, .ok ()) [.clear]
  | reset : Writes allowed (.reset, .ok ()) [.clear]

/-- Events forget nothing, if what the rules ask for meanwhile does not. -/
theorem Writes.clear_notMem {e : DocumentEvent} {answer : Except BindError Unit}
    {shifts : List Shift} (h : Writes allowed (.event e, answer) shifts)
    (hclear : ¬ allowed .clear) : .clear ∉ shifts := by
  have hnot : ∀ {asked : List Shift}, (∀ s ∈ asked, allowed s) → .clear ∉ asked :=
    fun hallowed hmem => hclear (hallowed _ hmem)
  cases h with
  | pass | unbalanced => exact List.not_mem_nil
  | start _ _ h | body _ _ h => simp [hnot h]
  | close _ h h' | ending _ _ h h' => simp [hnot h, hnot h']

/-- The binder goes from the one to the other through the shifts of an exchange. -/
def Exchanges (allowed : Shift → Prop) (e : Exchange) (b b' : Binder κ) : Prop :=
  ∃ shifts, Served b shifts b' ∧ Writes allowed e shifts

/-- A request is answered with the shifts of the exchange, unless the program crashes. -/
def Request.Meets (x : Extension κ) (allowed : Shift → Prop) (r : Request) (b : Binder κ) : Prop :=
  (r.run x).Meets b (fun _ b' => Exchanges allowed (r, .ok ()) b b')
    fun halt b' => ∀ cause, halt = .error cause → Exchanges allowed (r, .error cause) b b'

namespace Request

theorem meets_start (hx : x.Asks allowed) {tag : StartTag} (hname : ProperName tag.name)
    (b : Binder κ) : Meets x allowed (.event (.start tag)) b := by
  change (deliver x (.start tag)).Meets b _ _
  cases hb : b.capture with
  | some c =>
    rw [Action.meets_of_ok (startElement_captured x tag b c hb)]
    exact ⟨[], .aside rfl, .pass _⟩
  | none =>
    cases hfound : b.rulesAt? tag with
    | none =>
      rw [Action.meets_of_error (start_eq_crash tag hb hfound)]
      exact fun _ => nofun
    | some found =>
      rw [Action.meets_congr (start_eq_callRules tag hb hfound)]
      refine (meets_callRules_served hx ..).mono (fun _ b' hserved => ?_)
        fun halt b' h cause hc => ?_
      · obtain ⟨asked, hasked, hallowed⟩ := hserved
        exact ⟨_, .start hname hasked, .start tag _ hallowed⟩
      · obtain ⟨⟨asked, hasked, hallowed⟩, -⟩ := h cause hc
        exact ⟨_, .start hname hasked, .start tag _ hallowed⟩

theorem meets_close (hx : x.Asks allowed) (tag : EndTag) (b : Binder κ) :
    Meets x allowed (.event (.close tag)) b := by
  change (deliver x (.close tag)).Meets b _ _
  cases hc : b.capture.bind (·.close?) with
  | some c' =>
    obtain ⟨c, hb, hc'⟩ := Option.bind_eq_some_iff.mp hc
    rw [Action.meets_of_ok (endElement_captured x tag b c c' hb hc')]
    exact ⟨[], .aside rfl, .pass _⟩
  | none =>
    cases hm : b.matched with
    | nil =>
      have hend : b.endCapture.layers = b.layers := congrArg (·.1.layers) b.course_endCapture
      rw [Action.meets_of_error (close_eq_unbalanced tag hc hm)]
      rintro _ ⟨⟩
      exact ⟨[], .aside hend, .unbalanced tag _⟩
    | cons found outer =>
      rw [Action.meets_congr (close_eq_closeRules tag hc hm)]
      unfold closeRules
      simp only [Action.meets_bind, Action.meets_modify]
      refine (meets_callRules_served hx ..).mono (fun _ m hbodies => ?_) fun halt m h cause hc => ?_
      · obtain ⟨asked, hasked, hallowed⟩ := hbodies
        refine (meets_callRules_served hx ..).mono (fun _ m' hends => ?_)
          fun halt m' h cause hc => ?_
        · obtain ⟨more, hmore, hallowed'⟩ := hends
          exact ⟨_, .close hm hasked hmore, .close tag hallowed hallowed'⟩
        · obtain ⟨⟨more, hmore, hallowed'⟩, failure, rfl, hphase⟩ := h cause hc
          exact ⟨_, .ending hm hasked hmore, .ending tag hphase hallowed hallowed'⟩
      · obtain ⟨⟨asked, hasked, hallowed⟩, failure, rfl, hphase⟩ := h cause hc
        exact ⟨_, .body hm hasked, .body tag hphase hallowed⟩

theorem meets_endDocument (hx : x.Asks allowed) (b : Binder κ) :
    Meets x allowed .endDocument b := by
  change (XmlBinding.endDocument x).Meets b _ _
  have hlead : ServedBy allowed b b.noteLeftover := .of_layers (by
    unfold Binder.noteLeftover
    split
    · exact congrArg (·.1.layers) (b.course_note ..)
    · rfl)
  obtain ⟨fs, s, hcalled, hend⟩ | ⟨front, ref, back, fs, s, halt, s', -, hfront, hfails, hend⟩ :=
    finishes_endDocument (x := x) b
  · rw [Action.meets_of_ok hend]
    obtain ⟨asked, hasked, hallowed⟩ := hlead.trans (hcalled.served hx)
    exact ⟨_, .append hasked (.clear rfl), .endDocument _ hallowed⟩
  · rw [Action.meets_of_error hend]
    rintro cause rfl
    obtain ⟨asked, hasked, hallowed⟩ :=
      (hlead.trans (hfront.served hx)).trans (hfails.served hx).1
    exact ⟨_, .append hasked (.clear rfl), .endDocument _ hallowed⟩

/-- **One request.** Where what the rules do is made of requests, so is what a request does. -/
theorem meets_run (hx : x.Asks allowed) {r : Request}
    (hr : ∀ tag, r = .event (.start tag) → ProperName tag.name) (b : Binder κ) :
    Meets x allowed r b := by
  cases r with
  | event e =>
    cases e with
    | start tag => exact meets_start hx (hr tag rfl) b
    | text content =>
      have hlayers : (b.characters content).layers = b.layers := by
        unfold Binder.characters
        split <;> rfl
      exact ⟨[], .aside hlayers, .pass _⟩
    | close tag => exact meets_close hx tag b
  | endDocument => exact meets_endDocument hx b
  | clear => exact ⟨_, .clear rfl, .clear⟩
  | reset => exact ⟨_, .clear rfl, .reset⟩

/-- A rule may make any request, as far as the shifts of the request go, where the rules that are
called meanwhile do the same. -/
theorem asks_run (hx : x.Asks allowed) {r : Request}
    (hr : ∀ tag, r = .event (.start tag) → ProperName tag.name)
    (hown : ∀ answer shifts, Writes allowed (r, answer) shifts → ∀ s ∈ shifts, allowed s) :
    (r.run x).Asks allowed := by
  intro b
  have hserved : ∀ {answer b'}, Exchanges allowed (r, answer) b b' → ServedBy allowed b b' := by
    rintro answer b' ⟨shifts, hshifts, hwrites⟩
    exact ⟨shifts, hshifts, hown answer shifts hwrites⟩
  refine (meets_run hx hr b).mono (fun _ _ => hserved) fun halt b' h => ?_
  cases halt with
  | error cause => exact .inr (hserved (h cause rfl))
  | crash => exact .inl rfl

/-- Delivering events has nothing forgotten. -/
theorem asks_event (hx : x.Asks (· ≠ .clear)) {e : DocumentEvent}
    (he : ∀ tag, e = .start tag → ProperName tag.name) :
    ((Request.event e).run x).Asks (· ≠ .clear) := by
  refine asks_run hx (fun tag htag => he tag (Request.event.inj htag)) ?_
  intro answer shifts hwrites s hs heq
  exact hwrites.clear_notMem (fun h => h rfl) (heq ▸ hs)

end Request

end XmlBinding
