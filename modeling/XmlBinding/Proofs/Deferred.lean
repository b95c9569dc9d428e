import XmlBinding.Proofs.Trace.Reader
import XmlBinding.Proofs.Trace.Texts
import XmlBinding.Proofs.Trace.Turn

/-!
# Deferred calls

A rule that calls a method at the end of its element finds the frame that its own start put up. By
then every slot has the value that was stored there last while this frame was the top one, or is
still empty. A call without parameters finds the text of its own element. All of it holds of any
rules on any elements, nested or repeated, as long as no call fails.
-/
namespace XmlBinding

/-! ### Frames along a trace -/

namespace FrameEffect

/-- The number of frames stays. -/
def Level : FrameEffect → Prop
  | opens _ | takes => False
  | stores .. | nothing => True

end FrameEffect

namespace Firing

variable (f : Firing Empty)

def effect : FrameEffect := f.call.rule.standard.frameEffect f.call.callback f.before

/-- The value that the call stores in a slot of the frame at some height. -/
def storedAt? (height index : Nat) : Option Value :=
  match f.effect with
  | .stores slot v => if f.before.params.length = height ∧ slot = index then some v else none
  | _ => none

variable {f}

theorem storedAt?_of_stores {height slot : Nat} {v : Value} (h : f.effect = .stores slot v)
    (hheight : f.before.params.length = height) (index : Nat) :
    f.storedAt? height index = if slot = index then some v else none := by
  unfold storedAt?
  simp [h, hheight]

theorem storedAt?_of_ne {height : Nat} (h : f.before.params.length ≠ height) (index : Nat) :
    f.storedAt? height index = none := by
  unfold storedAt?
  split <;> simp [h]

/-- Only what stores a value fills a slot. -/
theorem storedAt?_of_effect (h : ∀ slot v, f.effect ≠ .stores slot v) (height index : Nat) :
    f.storedAt? height index = none := by
  unfold storedAt?
  split
  · next slot v heffect => exact absurd heffect (h slot v)
  · rfl

theorem Fires.acts {f : Firing Empty} (h : f.Fires .none) :
    f.effect.Acts f.before.params f.after.params := by
  unfold Fires at h
  rw [RuleRef.fire_standard] at h
  exact StandardRule.acts_fire h

end Firing

/-- The value that was stored last in a slot of the frame at some height. -/
def lastStored (height index : Nat) (fs : List (Firing Empty)) : Option Value :=
  (fs.filterMap (·.storedAt? height index)).getLast?

theorem lastStored_append (height index : Nat) (fs gs : List (Firing Empty)) :
    lastStored height index (fs ++ gs) =
      (lastStored height index gs).or (lastStored height index fs) := by
  unfold lastStored
  rw [List.filterMap_append, List.getLast?_append]

theorem lastStored_singleton (height index : Nat) (f : Firing Empty) :
    lastStored height index [f] = f.storedAt? height index := by
  unfold lastStored
  cases h : f.storedAt? height index <;> simp [h]

theorem lastStored_cons (height index : Nat) (f : Firing Empty) (fs : List (Firing Empty)) :
    lastStored height index (f :: fs) =
      (lastStored height index fs).or (f.storedAt? height index) := by
  rw [← lastStored_singleton, ← lastStored_append]
  rfl

theorem lastStored_eq_none {height index : Nat} {fs : List (Firing Empty)}
    (h : ∀ f ∈ fs, f.storedAt? height index = none) : lastStored height index fs = none := by
  unfold lastStored
  rw [List.filterMap_eq_nil_iff.mpr h]
  rfl

/-- Calls that take every frame that they put up. -/
inductive Balanced : List (Firing Empty) → Prop
  | nil : Balanced []
  | level {f : Firing Empty} {fs : List (Firing Empty)} (hf : f.effect.Level) (h : Balanced fs) :
      Balanced (f :: fs)
  | frame {f g : Firing Empty} {inner rest : List (Firing Empty)} {size : Nat}
      (hf : f.effect = .opens size) (hinner : Balanced inner) (hg : g.effect = .takes)
      (hrest : Balanced rest) : Balanced (f :: (inner ++ g :: rest))

namespace Balanced

variable {fs gs : List (Firing Empty)}

theorem append (h : Balanced fs) (h' : Balanced gs) : Balanced (fs ++ gs) := by
  induction h with
  | nil => exact h'
  | level hf _ ih => exact .level hf ih
  | frame hf hinner hg _ _ ih =>
    rw [List.cons_append, List.append_assoc, List.cons_append]
    exact .frame hf hinner hg ih

theorem of_level (h : ∀ f ∈ fs, f.effect.Level) : Balanced fs := by
  induction fs with
  | nil => exact .nil
  | cons f rest ih =>
    obtain ⟨hf, hrest⟩ := List.forall_mem_cons.mp h
    exact .level hf (ih hrest)

/-- What balanced calls make of the frame on top of the others: they leave the frame itself, with
the values that were stored in it last, and everything below. -/
structure Fills (frame : List Value) (low : Stack (List Value)) (fs : List (Firing Empty))
    (frame' : List Value) : Prop where
  length_eq : frame'.length = frame.length
  slot : ∀ i : Nat, frame'[i]? =
    frame[i]?.map fun old => (lastStored (low.length + 1) i fs).getD old
  above : ∀ f ∈ fs, low.length < f.before.params.length ∧ low.length < f.after.params.length

theorem Fills.nil (frame : List Value) (low : Stack (List Value)) : Fills frame low [] frame :=
  ⟨rfl, fun i => by simp [lastStored], List.forall_mem_nil _⟩

variable {frame frame' : List Value} {low : Stack (List Value)} {f : Firing Empty}

/-- A call at the height of the frame that stores nothing changes nothing in it. -/
theorem Fills.skip (h : Fills frame low fs frame') (hf : ∀ slot v, f.effect ≠ .stores slot v)
    (habove : low.length < f.before.params.length ∧ low.length < f.after.params.length) :
    Fills frame low (f :: fs) frame' := by
  refine ⟨h.length_eq, fun i => ?_, List.forall_mem_cons.mpr ⟨habove, h.above⟩⟩
  rw [h.slot, lastStored_cons, Firing.storedAt?_of_effect hf, Option.or_none]

/-- A value that is stored in a slot stays there, unless another one follows. -/
theorem Fills.store {slot : Nat} {v : Value} (h : Fills (frame.set slot v) low fs frame')
    (hf : f.effect = .stores slot v) (hslot : slot < frame.length)
    (hbefore : f.before.params.length = low.length + 1)
    (hafter : f.after.params.length = low.length + 1) : Fills frame low (f :: fs) frame' := by
  refine ⟨h.length_eq.trans List.length_set, fun i => ?_,
    List.forall_mem_cons.mpr ⟨⟨by omega, by omega⟩, h.above⟩⟩
  rw [h.slot, lastStored_cons, Firing.storedAt?_of_stores hf hbefore, List.getElem?_set]
  by_cases hi : slot = i
  · subst hi
    rw [if_pos rfl, if_pos hslot, if_pos rfl, List.getElem?_eq_getElem hslot]
    cases lastStored (low.length + 1) slot fs <;> rfl
  · rw [if_neg hi, if_neg hi, Option.or_none]

/-- What goes on above the frame changes nothing in it. -/
theorem Fills.behind {inner rest : List (Firing Empty)} (h : Fills frame low rest frame')
    (hinner : ∀ f ∈ inner, low.length + 1 < f.before.params.length ∧
      low.length + 1 < f.after.params.length) : Fills frame low (inner ++ rest) frame' := by
  refine ⟨h.length_eq, fun i => ?_, List.forall_mem_append.mpr ⟨fun f hf => ?_, h.above⟩⟩
  · rw [h.slot, lastStored_append, lastStored_eq_none fun f hf =>
      Firing.storedAt?_of_ne (Nat.ne_of_gt (hinner f hf).1) i, Option.or_none]
  · have := hinner f hf
    omega

theorem fills (h : Balanced fs) (hfires : ∀ f ∈ fs, f.Fires .none) {after : Stack (List Value)}
    (hl : Linked Binder.params (frame :: low) fs after) :
    ∃ frame', after = frame' :: low ∧ Fills frame low fs frame' := by
  induction h generalizing frame low after with
  | nil =>
    cases hl
    exact ⟨frame, rfl, .nil frame low⟩
  | @level f fs hf _ ih =>
    obtain ⟨hfirst, hrest⟩ := List.forall_mem_cons.mp hfires
    have hacts := hfirst.acts
    cases hl with
    | cons hbefore hlinked =>
      cases heffect : f.effect with
      | opens | takes =>
        rw [heffect] at hf
        exact hf.elim
      | nothing =>
        rw [heffect] at hacts
        have hafter : f.after.params = frame :: low := hacts.trans hbefore
        rw [hafter] at hlinked
        obtain ⟨frame', rfl, hfills⟩ := ih hrest hlinked
        refine ⟨frame', rfl, hfills.skip (by rw [heffect]; exact nofun) ?_⟩
        rw [hbefore, hafter]
        exact ⟨Nat.lt_succ_self _, Nat.lt_succ_self _⟩
      | stores slot v =>
        rw [heffect] at hacts
        obtain ⟨top, below, htop, hslot, hafter⟩ := hacts
        obtain ⟨rfl, rfl⟩ := List.cons.inj (hbefore.symm.trans htop)
        rw [hafter] at hlinked
        obtain ⟨frame', rfl, hfills⟩ := ih hrest hlinked
        exact ⟨frame', rfl, hfills.store heffect hslot (congrArg List.length hbefore)
          (congrArg List.length hafter)⟩
  | @frame f g inner rest size hf _ hg _ inner_ih rest_ih =>
    obtain ⟨hfirst, hothers⟩ := List.forall_mem_cons.mp hfires
    obtain ⟨hinner, hlast⟩ := List.forall_mem_append.mp hothers
    obtain ⟨hg', hrest⟩ := List.forall_mem_cons.mp hlast
    have hopens := hfirst.acts
    have htakes := hg'.acts
    rw [hf] at hopens
    rw [hg] at htakes
    cases hl with
    | cons hbefore hlinked =>
      have hafter : f.after.params = List.replicate size .null :: frame :: low :=
        hopens.trans (congrArg _ hbefore)
      rw [hafter] at hlinked
      obtain ⟨mid, hinnerLinked, hback⟩ := hlinked.split
      obtain ⟨top, rfl, hinnerFills⟩ := inner_ih hinner hinnerLinked
      cases hback with
      | cons hgbefore hlinked =>
        obtain ⟨taken, htaken⟩ := htakes
        obtain ⟨-, hgafter⟩ := List.cons.inj (hgbefore.symm.trans htaken)
        rw [← hgafter] at hlinked
        obtain ⟨frame', rfl, hfills⟩ := rest_ih hrest hlinked
        refine ⟨frame', rfl, Fills.skip ?_ (by rw [hf]; exact nofun) ?_⟩
        · refine Fills.behind (hfills.skip (by rw [hg]; exact nofun) ?_) hinnerFills.above
          rw [hgbefore, ← hgafter]
          exact ⟨by simp only [List.length_cons]; omega, Nat.lt_succ_self _⟩
        · rw [hbefore, hafter]
          exact ⟨Nat.lt_succ_self _, by simp only [List.length_cons]; omega⟩

end Balanced

/-! ### Frames of elements -/

namespace StandardRule

variable {κ : Type} (b : Binder κ)

/-- A rule that puts up no frame takes none. -/
theorem level_frameEffect {rule : StandardRule} (h : rule.opensFrame = false) (cb : Callback) :
    (rule.frameEffect cb b).Level := by
  cases rule with
  | callMethod method arguments types offset number =>
    cases arguments with
    | frame size => cases h
    | _ => cases cb <;> trivial
  | callParam index source number =>
    cases cb with
    | start uri name attrs =>
      cases source with
      | attr wanted =>
        unfold frameEffect
        dsimp only
        split <;> trivial
      | _ => trivial
    | _ => cases source <;> trivial
  | objectParam index v attr =>
    cases cb with
    | start uri name attrs =>
      unfold frameEffect
      dsimp only
      split <;> trivial
    | _ => trivial
  | _ => cases cb <;> trivial

/-- A rule that puts up a frame at the start takes one at the end. -/
theorem frameEffect_of_opensFrame {rule : StandardRule} (h : rule.opensFrame = true) :
    (∃ size, ∀ uri name attrs (b : Binder κ),
      rule.frameEffect (.start uri name attrs) b = .opens size) ∧
      ∀ uri name (b : Binder κ), rule.frameEffect (.close uri name) b = .takes := by
  cases rule with
  | callMethod method arguments types offset number =>
    cases arguments with
    | frame size => exact ⟨⟨size, fun _ _ _ _ => rfl⟩, fun _ _ _ => rfl⟩
    | _ => cases h
  | _ => cases h

/-- The text of an element touches no frame. -/
theorem frameEffect_body (rule : StandardRule) (uri name text : String) :
    rule.frameEffect (.body uri name text) b = .nothing := by
  cases rule with
  | callMethod method arguments types offset number => cases arguments <;> rfl
  | callParam index source number => cases source <;> rfl
  | _ => rfl

end StandardRule

/-- Around what is balanced the starts of some rules and their ends in the opposite order are
balanced. -/
theorem Balanced.around {refs : List (RuleRef Empty)} {uri name uri' name' : String}
    {attrs : Attributes} {starting middle ending : List (Firing Empty)}
    (hstarts : starting.map Firing.call = refs.map (⟨·, .start uri name attrs⟩))
    (hends : ending.map Firing.call = refs.reverse.map (⟨·, .close uri' name'⟩))
    (hmiddle : Balanced middle) : Balanced (starting ++ (middle ++ ending)) := by
  induction refs generalizing starting ending with
  | nil =>
    obtain rfl := List.map_eq_nil_iff.mp hstarts
    obtain rfl := List.map_eq_nil_iff.mp hends
    rwa [List.append_nil]
  | cons ref rest ih =>
    rw [List.map_cons] at hstarts
    rw [List.reverse_cons, List.map_append] at hends
    obtain ⟨s, starting', rfl, hs, hstarts'⟩ := List.map_eq_cons_iff.mp hstarts
    obtain ⟨ending', lasts, rfl, hends', hlasts⟩ := List.map_eq_append_iff.mp hends
    obtain ⟨e, rfl, he⟩ : ∃ e, lasts = [e] ∧ e.call = ⟨ref, .close uri' name'⟩ := by
      obtain ⟨e, nothing, rfl, he, hnothing⟩ := List.map_eq_cons_iff.mp hlasts
      obtain rfl := List.map_eq_nil_iff.mp hnothing
      exact ⟨e, rfl, he⟩
    have hinner := ih hstarts' hends'
    have hs' : s.effect = ref.standard.frameEffect (.start uri name attrs) s.before := by
      unfold Firing.effect
      rw [hs]
    have he' : e.effect = ref.standard.frameEffect (.close uri' name') e.before := by
      unfold Firing.effect
      rw [he]
    have hsplit : (s :: starting') ++ (middle ++ (ending' ++ [e])) =
        s :: ((starting' ++ (middle ++ ending')) ++ [e]) := by
      simp only [List.cons_append, List.append_assoc]
    rw [hsplit]
    cases hopens : ref.standard.opensFrame with
    | true =>
      obtain ⟨⟨size, hopen⟩, htake⟩ := StandardRule.frameEffect_of_opensFrame hopens
      exact .frame (hs'.trans (hopen ..)) hinner (he'.trans (htake ..)) .nil
    | false =>
      refine .level ?_ (hinner.append (.level ?_ .nil))
      · rw [hs']
        exact StandardRule.level_frameEffect _ hopens _
      · rw [he']
        exact StandardRule.level_frameEffect _ hopens _

theorem Called.balanced_bodies {refs : List (RuleRef Empty)} {uri name text : String}
    {b b' : Binder Empty} {fs : List (Firing Empty)}
    (h : Called .none (.body uri name text) refs b fs b') : Balanced fs := by
  refine .of_level fun f hf => ?_
  have hcall : f.call ∈ refs.map (⟨·, .body uri name text⟩) := by
    rw [← h.map_call]
    exact List.mem_map_of_mem hf
  obtain ⟨ref, -, href⟩ := List.mem_map.mp hcall
  unfold Firing.effect
  rw [← href, StandardRule.frameEffect_body]
  trivial

/-- The calls of the content of an element are balanced if content is balanced anywhere. -/
theorem Passage.balanced_within_of {tag : StartTag} {inner : Content} {closing : EndTag}
    {b b' : Binder Empty} (p : Passage .none tag inner closing b b')
    (h : ∀ {o fs f}, o.capture = none → Delivered .none inner.events o fs f → Balanced fs) :
    Balanced p.within := by
  cases hopened : p.opened.capture with
  | none => exact h hopened p.content
  | some own =>
    rw [p.opaque_content (by rw [hopened]; rfl)]
    exact .nil

/-- The calls of an element are balanced if those of its content are. -/
theorem Passage.balanced {tag : StartTag} {inner : Content} {closing : EndTag}
    {b b' : Binder Empty} (p : Passage .none tag inner closing b b') (h : Balanced p.within) :
    Balanced p.firings := by
  unfold Passage.firings
  rw [List.append_assoc, List.append_assoc, ← List.append_assoc p.within]
  exact .around p.starts.map_call p.ends.map_call (h.append p.bodies.balanced_bodies)

/-- The calls that content makes are balanced. -/
theorem Delivered.balanced (c : Content) {b b' : Binder Empty} {fs : List (Firing Empty)}
    (hb : b.capture = none) (h : Delivered .none c.events b fs b') : Balanced fs := by
  induction c generalizing b fs b' with
  | done =>
    cases h
    exact .nil
  | text content rest ih =>
    exact ih (by rw [characters_of_not_capturing content hb, hb]) h.behind_text
  | element tag inner closing rest inner_ih rest_ih =>
    obtain ⟨m, p, gs, rfl, hrest, hcapture, -⟩ :=
      h.passage Extension.quiet_none (fun hb h => h.settles Extension.quiet_none inner hb) hb
    exact (p.balanced (p.balanced_within_of inner_ih)).append (rest_ih hcapture hrest)

/-! ### The end of a deferred call -/

/-- The frame that a rule put up at its start is the one that it finds and takes at its end. In
between it is never taken off, and each slot holds what was stored in it last. -/
structure FilledFrame (size : Nat) (opening : Firing Empty) (between : List (Firing Empty))
    (ending : Firing Empty) (frame : List Value) (low : Stack (List Value)) : Prop where
  put_on : opening.before.params = low
  put : opening.after.params = List.replicate size .null :: low
  stays : ∀ f ∈ between, low.length < f.before.params.length ∧ low.length < f.after.params.length
  found : ending.before.params = frame :: low
  taken : ending.after.params = low
  length_eq : frame.length = size
  slot : ∀ i < size, frame[i]? = some ((lastStored (low.length + 1) i between).getD .null)

/-- How the end of a deferred call runs. It takes the arguments off their stack, and then the method
is called once with them, unless the call is left out. -/
def RunsCall (method : String) (args : List Value) (types : List ScalarType) (offset : Int)
    (leftOut : Prop) (f : Firing Empty) : Prop :=
  ∃ s : Binder Empty,
    s = { f.before with params := s.params, named := s.named, journal := s.journal } ∧
      (leftOut → f.after = s) ∧ (¬leftOut → Invokes method args types offset s f.after)

section Ends

variable {tag : StartTag} {inner : Content} {closing : EndTag} {b b' : Binder Empty}
  {p : Passage .none tag inner closing b b'} {front back : List (RuleRef Empty)}
  {ref : RuleRef Empty} {method : String} {types : List ScalarType} {offset : Int} {number : Nat}

namespace Passage.Turn

variable (t : p.Turn front ref back)

theorem balanced_between : Balanced t.between :=
  .around t.later_calls t.sooner_calls
    ((p.balanced_within_of (Delivered.balanced inner)).append p.bodies.balanced_bodies)

/-- The frame of a rule between its start and its end. -/
theorem filledFrame {size : Nat}
    (hrule : ref.standard = .callMethod method (.frame size) types offset number) :
    ∃ frame, FilledFrame size t.opening t.between t.ending frame t.opening.before.params := by
  have hopen := t.opening_fires.acts
  have hclose := t.ending_fires.acts
  unfold Firing.effect at hopen hclose
  rw [t.opening_call, hrule] at hopen
  rw [t.ending_call, hrule] at hclose
  have hput : t.opening.after.params = List.replicate size .null :: t.opening.before.params := hopen
  obtain ⟨taken, htaken⟩ : ∃ frame, t.ending.before.params = frame :: t.ending.after.params := hclose
  have hlinked := t.linked.map Held.params
  change Linked Binder.params t.opening.after.params t.between t.ending.before.params at hlinked
  rw [hput] at hlinked
  obtain ⟨frame, hfound, hfills⟩ := t.balanced_between.fills t.between_fires hlinked
  refine ⟨frame, rfl, hput, hfills.above, hfound, ?_, ?_, fun i hi => ?_⟩
  · exact (List.cons.inj (htaken.symm.trans hfound)).2
  · rw [hfills.length_eq, List.length_replicate]
  · rw [hfills.slot, List.getElem?_replicate, if_pos hi]
    rfl

theorem ending_runs {arguments : Arguments}
    (hrule : ref.standard = .callMethod method arguments types offset number) :
    StandardRule.callDeferred method arguments types offset (StandardRule.callTexts number)
      t.ending.before = .ok () t.ending.after := by
  have hfires := t.ending_fires
  unfold Firing.Fires at hfires
  rw [RuleRef.fire_standard, t.ending_call, hrule] at hfires
  exact hfires

/-- A call with parameters is left out exactly if its only parameter is null. -/
theorem runsCall_of_frame {size : Nat}
    (hrule : ref.standard = .callMethod method (.frame size) types offset number)
    {frame : List Value} {low : Stack (List Value)}
    (hframe : FilledFrame size t.opening t.between t.ending frame low) :
    RunsCall method frame types offset (size = 1 ∧ frame = [.null]) t.ending := by
  obtain ⟨args, m, hcollect, hrun⟩ := StandardRule.callDeferred_eq_ok (t.ending_runs hrule)
  obtain ⟨found, below, hfound, hm, hargs⟩ := StandardRule.collectFrame_eq_ok hcollect
  obtain ⟨rfl, rfl⟩ := List.cons.inj (hframe.found.symm.trans hfound)
  have hskip : (size = 1 ∧ (frame.headD .null).isNull = true) ↔ size = 1 ∧ frame = [.null] := by
    refine and_congr_right fun hone => ?_
    obtain ⟨v, rfl⟩ := List.length_eq_one_iff.mp (hframe.length_eq.trans hone)
    cases v <;> simp [Value.isNull]
  refine ⟨m, ?_, fun hleft => ?_, fun hcall => ?_⟩
  · rw [hm]
  · rw [if_pos (hskip.mpr hleft)] at hargs
    subst hargs
    exact hrun
  · rw [if_neg (mt hskip.mp hcall)] at hargs
    subst hargs
    exact hrun

/-- At the end of a rule that kept its text, the text of its own element is on top. -/
theorem kept_text {own : StackName} (hstack : ref.standard.textStack? = some own)
    (hfound : p.found = front ++ ref :: back) :
    ∃ rest, t.ending.before.named.items own = .text (Text.trim p.text) :: rest := by
  have hbodies := p.bodies.items_bodies own
  have hends := p.ends
  rw [hfound, List.reverse_append, List.reverse_cons, List.append_assoc] at hends
  obtain ⟨m, sooner, rest, hsplit, hsooner, hrest⟩ := hends.split
  rw [t.ending_eq] at hsplit
  have hlength : sooner.length = t.sooner.length := by
    have hcalls := congrArg List.length (hsooner.map_call.trans t.sooner_calls.symm)
    simpa using hcalls
  obtain ⟨-, rfl⟩ := List.append_inj hsplit hlength.symm
  have hflags : ∀ rule : StandardRule, rule.flagStack? ≠ some own :=
    fun _ hflag => StandardRule.textStack?_ne_flagStack? hflag hstack
  obtain ⟨dropped, hdropped, hcount⟩ := hsooner.items_ends hflags
  have hbefore : t.ending.before.named.items own = m.named.items own := by
    have hheld := congrArg Held.named
      (m.held_recordCall .none (.close closing.uri closing.name) ref)
    rw [hrest.before_eq]
    exact congrArg (·.items own) hheld
  change p.told.named.items own = _ at hdropped
  rw [hbodies] at hdropped
  -- The bodies put one text more on the stack than the ends of the rules behind have taken off.
  have hitems : m.named.items own = (List.replicate (p.found.countP _) _ ++ _).drop
      dropped.length := (List.drop_left.symm).trans (congrArg _ hdropped.symm)
  have hle : dropped.length + 1 ≤
      p.found.countP fun ref => decide (ref.standard.textStack? = some own) := by
    rw [hcount, List.countP_reverse, hfound, List.countP_append, List.countP_cons_of_pos
      (by simpa using hstack)]
    omega
  rw [hbefore, hitems, List.drop_append_of_le_length (by rw [List.length_replicate]; omega),
    List.drop_replicate]
  obtain ⟨more, hmore⟩ := Nat.exists_eq_add_of_le hle
  rw [hmore, show dropped.length + 1 + more - dropped.length = more + 1 by omega]
  exact ⟨_, rfl⟩

/-- A call without parameters gets the text of its own element. -/
theorem runsCall_of_bodyText (hfound : p.found = front ++ ref :: back)
    (hrule : ref.standard = .callMethod method .bodyText types offset number) :
    RunsCall method [.text (Text.trim p.text)] types offset False t.ending := by
  have hstack : ref.standard.textStack? = some (StandardRule.callTexts number) := by
    rw [hrule]
    rfl
  obtain ⟨rest, hkept⟩ := t.kept_text hstack hfound
  obtain ⟨args, m, hcollect, hrun⟩ := StandardRule.callDeferred_eq_ok (t.ending_runs hrule)
  obtain ⟨v, s, hpop, hreturn⟩ := Action.bind_eq_ok.mp hcollect
  cases hreturn
  obtain ⟨named, hnamed, rfl⟩ := Action.popNamed_eq_ok hpop
  have htop := (NamedStacks.items_pop hnamed (StandardRule.callTexts number)).1
  obtain rfl : v = .text (Text.trim p.text) := (List.cons.inj (htop.symm.trans hkept)).1
  exact ⟨_, rfl, False.elim, fun _ => hrun⟩

end Passage.Turn

/-- The deferred calls of an element run with what belongs to this element. A call with parameters
runs with the frame of its own rule and is left out if the only slot stayed empty. A call without
parameters runs with the text. -/
def Passage.DefersCalls (p : Passage .none tag inner closing b b') : Prop :=
  ∀ front ref back method count types offset number, p.found = front ++ ref :: back →
    ref.standard =
      .callMethod method (StandardRule.argumentsFor count) types offset number →
    ∃ t : p.Turn front ref back,
      if count = 0 then RunsCall method [.text (Text.trim p.text)] types offset False t.ending
      else ∃ frame low, FilledFrame count t.opening t.between t.ending frame low ∧
        RunsCall method frame types offset (count = 1 ∧ frame = [.null]) t.ending

theorem Passage.defersCalls (p : Passage .none tag inner closing b b') : p.DefersCalls := by
  intro front ref back method count types offset number hfound hrule
  obtain ⟨t⟩ := p.exists_turn hfound
  refine ⟨t, ?_⟩
  unfold StandardRule.argumentsFor at hrule
  by_cases hcount : count = 0
  · rw [if_pos hcount] at hrule ⊢
    exact t.runsCall_of_bodyText hfound hrule
  · rw [if_neg hcount] at hrule ⊢
    obtain ⟨frame, hframe⟩ := t.filledFrame hrule
    exact ⟨frame, _, hframe, t.runsCall_of_frame hrule hframe⟩

end Ends

/-- Every end tag ends an element, and the deferred calls of this element run with what belongs to
it. An element inside a captured node makes no calls. -/
def DefersAllCalls (b : Binder Empty) (es : List DocumentEvent) (fs : List (Firing Empty))
    (b' : Binder Empty) : Prop :=
  ∀ sooner closing later, es = sooner ++ .close closing :: later →
    ∃ earlier tag, ∃ inner : Content, sooner = earlier ++ .start tag :: inner.events ∧
      closing = tag.endTag ∧ ∃ m m' ahead behind, Delivered .none earlier b ahead m ∧
        Delivered .none later m' behind b' ∧
        (m.capture.isSome = true → fs = ahead ++ behind) ∧
        (m.capture = none → ∃ p : Passage .none tag inner closing m m',
          fs = ahead ++ p.firings ++ behind ∧ p.DefersCalls)

theorem Delivered.defersAllCalls {es : List DocumentEvent} {b b' : Binder Empty}
    {fs : List (Firing Empty)} {due : List EndTag} (h : Delivered .none es b fs b')
    (hp : Pairs [] es due) : DefersAllCalls b es fs b' := by
  intro sooner closing later hes
  subst hes
  obtain ⟨earlier, tag, inner, rfl, hclosing⟩ := hp.opening
  rw [List.append_assoc, List.cons_append] at h
  obtain ⟨m, m', ahead, behind, hearlier, hlater, hinside, hpassage⟩ :=
    h.exists_passage Extension.quiet_none
  refine ⟨earlier, tag, inner, rfl, hclosing, m, m', ahead, behind, hearlier, hlater, hinside,
    fun hcapture => ?_⟩
  obtain ⟨p, hp⟩ := hpassage hcapture
  exact ⟨p, hp, p.defersCalls⟩

/-- **Deferred calls.** Whatever part of a text has been handled without a failure, the deferred
calls of every element that has ended ran with their own arguments: those with parameters with the
frame that their rule put up at the start of this element, in which each slot holds what was stored
there last while the frame was on top, those without parameters with the text of this element. -/
theorem deferred_call_law (text : String) (b : Binder Empty) :
    ∀ front back, Markup.scan text.toList = front ++ back → ∀ opened b',
      Document.handleAll .none b.options.namespaceAware { rest := text.toList } [] front
        (b.atStart text.toList) = .ok opened b' →
      ∃ rs es fs, Generic.delivered? front = some rs ∧
        Handled .none b.options.namespaceAware rs [] (b.atStart text.toList) opened b' es fs ∧
        b'.calls = (fs.map Firing.call).reverse ∧
        DefersAllCalls (b.atStart text.toList) es fs b' := by
  intro front back _ opened b' hrun
  obtain ⟨⟨rs, es, fs, hrs, hhandled⟩, -⟩ := Document.handled_handleAll hrun
  have hcalls := hhandled.delivered.calls Extension.quiet_none
  exact ⟨rs, es, fs, hrs, hhandled, hcalls.trans (List.append_nil _),
    hhandled.delivered.defersAllCalls hhandled.pairs⟩

/-- Two calls on one element, one of them with a parameter from its child. -/
theorem deferred_call_law_of_two_calls :
    let rules : Table (RuleRef Empty) :=
      ((({} : Table _).register ['a'] ⟨0, .standard (.call "setName" (.frame 1) [] 0)⟩).register
        ['a'] ⟨1, .standard (.call "setName" .bodyText [] 0)⟩).register
        ['a', '/', 'b'] ⟨2, .standard (.parameter 0 .body)⟩
    let b : Binder Empty :=
      { matcher := .plain rules, stack := [.object ⟨0⟩]
        heap := ⟨#[{ bean := .person "" 0 none }]⟩ }
    let text := "<a>t<b>u</b></a>"
    let read := Document.handleAll .none b.options.namespaceAware { rest := text.toList } []
      (Markup.scan text.toList)
    let b' := read.after (b.atStart text.toList)
    read (b.atStart text.toList) = .ok [] b' ∧
      ∃ rs es fs, Generic.delivered? (Markup.scan text.toList) = some rs ∧
        Handled .none b.options.namespaceAware rs [] (b.atStart text.toList) [] b' es fs ∧
        b'.calls = (fs.map Firing.call).reverse ∧
        DefersAllCalls (b.atStart text.toList) es fs b' := by
  intro rules b text read b'
  have hread : read (b.atStart text.toList) = .ok [] b' :=
    Action.eq_ok_of_answer? (by decide +kernel)
  exact ⟨hread, deferred_call_law text b _ [] (List.append_nil _).symm [] b' hread⟩

end XmlBinding
