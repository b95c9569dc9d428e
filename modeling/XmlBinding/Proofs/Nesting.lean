import XmlBinding.Proofs.Requests

/-!
# The nesting of elements

For every open element the binder keeps its rules, the path around it and the text around it, and
the path has a segment for it. A caller may go on after an error. An end tag takes the rules away
before it calls them, gives the text back between the bodies and the ends, and takes the segment
away behind the ends. So a failure in between leaves a text or a segment behind. Nothing else does,
as long as no rule has everything forgotten while an end tag is at work.
-/
namespace XmlBinding

open Generic (pathInside)

variable {κ : Type} {x : Extension κ} {allowed : Shift → Prop}

/-! ### Histories -/

/-- Requests one after the other, the last one first. The caller goes on whatever the answer is. -/
inductive Answered (x : Extension κ) (b : Binder κ) : List Exchange → Binder κ → Prop
  | new : Answered x b [] b
  | ask {past : List Exchange} {m b' : Binder κ} {r : Request} {answer : Except BindError Unit}
      (h : Answered x b past m)
      (hrun : ((r.run x).attempt : Action κ BindError (Except BindError Unit)) m =
        .ok answer b') : Answered x b ((r, answer) :: past) b'

/-- The shifts of a whole history, the first one first. -/
inductive Written (allowed : Shift → Prop) : List Exchange → List Shift → Prop
  | new : Written allowed [] []
  | ask {past : List Exchange} {last : Exchange} {log shifts : List Shift}
      (h : Written allowed past log) (hlast : Writes allowed last shifts) :
      Written allowed (last :: past) (log ++ shifts)

/-- How many end tags failed in a body and how many in an end, since all was forgotten. -/
structure Drift where
  bodies : Nat := 0
  ends : Nat := 0
  deriving DecidableEq

/-- What one exchange adds. -/
def Drift.after (d : Drift) : Exchange → Drift
  | (.event (.close _), .error (.rule failure)) =>
    if failure.phase = .body then { d with bodies := d.bodies + 1 }
    else { d with ends := d.ends + 1 }
  | (.event _, _) => d
  | (_, _) => {}

def drift : List Exchange → Drift
  | [] => {}
  | last :: past => (drift past).after last

/-- The same from the shifts. An end tag whose rules are taken away counts among those that failed
in a body until the text around goes on, and then among those that failed in an end until the path
around is back. -/
def Drift.shifted (d : Drift) : Shift → Drift
  | .enter => d
  | .unmatch => { d with bodies := d.bodies + 1 }
  | .resume => ⟨d.bodies - 1, d.ends + 1⟩
  | .leave => { d with ends := d.ends - 1 }
  | .clear => {}

/-- The end tags that did not get through, those that rules asked for included. -/
def unfinished (log : List Shift) : Drift := log.foldl Drift.shifted {}

/-! ### Paths -/

/-- How many names a path has. -/
def segmentCount (path : String) : Nat :=
  if path.isEmpty then 0 else (Pattern.segments path.toList).length

theorem segmentCount_pathInside (path : String) {name : String} (h : ProperName name) :
    segmentCount (pathInside path name) = segmentCount path + 1 := by
  have hone : Pattern.segments name.toList = [name.toList] := Pattern.segments_of_no_slash h.2
  have hempty : name.isEmpty = false := Bool.eq_false_iff.mpr (mt String.isEmpty_iff.mp h.1)
  unfold segmentCount pathInside
  cases hpath : path.isEmpty with
  | true =>
    rw [if_pos rfl, if_pos rfl, hempty, if_neg Bool.false_ne_true, hone, List.length_singleton]
  | false =>
    have hlong : (path ++ "/" ++ name).isEmpty = false := Bool.eq_false_iff.mpr fun hempty =>
      h.1 (String.append_eq_empty_iff.mp (String.isEmpty_iff.mp hempty)).2
    have hsplit : (path ++ "/" ++ name).toList = path.toList ++ '/' :: name.toList := by simp
    rw [if_neg Bool.false_ne_true, if_neg Bool.false_ne_true, hlong, if_neg Bool.false_ne_true,
      hsplit, Pattern.segments_append_slash, hone, List.length_append, List.length_singleton]

namespace Surrounded

variable {names : List String} {b : Binder κ}

theorem segmentCount_pathOf (h : ∀ name ∈ names, ProperName name) :
    segmentCount (pathOf names) = names.length := by
  induction names with
  | nil => rfl
  | cons name outer ih =>
    obtain ⟨hname, houter⟩ := List.forall_mem_cons.mp h
    rw [pathOf, segmentCount_pathInside _ hname, ih houter, List.length_cons]

theorem length_pathsAround (names : List String) : (pathsAround names).length = names.length := by
  induction names with
  | nil => rfl
  | cons name outer ih => exact congrArg (· + 1) ih

/-- The path has a segment for every path that is kept. -/
theorem segmentCount_eq (h : Surrounded names b) : segmentCount b.path = b.outerPaths.length := by
  rw [h.path, segmentCount_pathOf h.proper, h.outerPaths, length_pathsAround]

end Surrounded

/-! ### Numbers -/

/-- The numbers differ by the end tags that did not get through. -/
structure Sizes.Drifted (k : Sizes) (d : Drift) : Prop where
  texts : k.texts = k.depth + d.bodies
  paths : k.paths = k.depth + d.bodies + d.ends

/-- What a shift takes away is there. -/
def Sizes.Has (k : Sizes) (d : Drift) : Shift → Prop
  | .enter | .clear => True
  | .unmatch => 0 < k.depth
  | .resume => 0 < d.bodies
  | .leave => 0 < d.ends

theorem Sizes.Drifted.after {k : Sizes} {d : Drift} (h : k.Drifted d) {s : Shift} (hs : k.Has d s) :
    (k.after s).Drifted (d.shifted s) := by
  obtain ⟨htexts, hpaths⟩ := h
  cases s <;> dsimp only [Sizes.Has] at hs <;>
    constructor <;> dsimp only [Sizes.after, Drift.shifted] <;> omega

namespace Drift

/-- Nothing that was left over before is worked off. -/
def Grows (d d' : Drift) : Prop := d.bodies ≤ d'.bodies ∧ d.ends ≤ d'.ends

variable {d d' d'' : Drift}

theorem Grows.trans (h : d.Grows d') (h' : d'.Grows d'') : d.Grows d'' :=
  ⟨h.1.trans h'.1, h.2.trans h'.2⟩

/-- Behind the bodies of an end tag it is still this end tag that gives its text back. -/
theorem Grows.resume (h : (d.shifted .unmatch).Grows d') :
    0 < d'.bodies ∧ d.Grows (d'.shifted .resume) ∧ d.ends < (d'.shifted .resume).ends := by
  obtain ⟨hbodies, hends⟩ := h
  dsimp only [shifted] at hbodies hends
  refine ⟨by omega, ⟨?_, ?_⟩, ?_⟩ <;> dsimp only [shifted] <;> omega

/-- Behind its ends it is still this end tag that takes its path away. -/
theorem Grows.leave (h : d.Grows d') (hends : d.ends < d'.ends) (h' : d'.Grows d'') :
    0 < d''.ends ∧ d.Grows (d''.shifted .leave) := by
  obtain ⟨hbodies, -⟩ := h.trans h'
  have hpos := hends.trans_le h'.2
  refine ⟨by omega, ?_, ?_⟩ <;> dsimp only [shifted] <;> omega

end Drift

theorem Sizes.Drifted.closing {b : Binder κ} {d : Drift} (hb : b.sizes.Drifted d)
    {found : List (RuleRef κ)} {outer : List (List (RuleRef κ))} (hm : b.matched = found :: outer) :
    (b.closing outer).sizes.Drifted (d.shifted .unmatch) := by
  have hdepth : b.sizes.depth = outer.length + 1 := congrArg List.length hm
  have hpos : 0 < b.sizes.depth := by omega
  rw [Binder.sizes_closing hm]
  exact hb.after hpos

/-- From the bodies of an end tag to its ends. -/
theorem Sizes.Drifted.resumed {m : Binder κ} {d d' : Drift} (hm : m.sizes.Drifted d')
    (hgrows : (d.shifted .unmatch).Grows d') : m.resumeText.sizes.Drifted (d'.shifted .resume) ∧
      d.Grows (d'.shifted .resume) ∧ d.ends < (d'.shifted .resume).ends := by
  obtain ⟨hpos, hresume⟩ := hgrows.resume
  rw [Binder.sizes_resumeText]
  exact ⟨hm.after hpos, hresume⟩

/-- Where nothing is forgotten, the numbers differ by the end tags that did not get through. Those
from before stay among them, so the text that an end tag gives back and the path that it takes away
are there. -/
theorem Served.drifted {b b' : Binder κ} {shifts : List Shift} (h : Served b shifts b')
    (hclear : .clear ∉ shifts) {d : Drift} (hb : b.sizes.Drifted d) :
    b'.sizes.Drifted (shifts.foldl Drift.shifted d) ∧ d.Grows (shifts.foldl Drift.shifted d) := by
  induction h generalizing d with
  | aside h =>
    rw [Binder.sizes_congr h]
    exact ⟨hb, Nat.le_refl _, Nat.le_refl _⟩
  | append _ _ front_ih back_ih =>
    rw [List.mem_append, not_or] at hclear
    obtain ⟨hm, hfront⟩ := front_ih hclear.1 hb
    obtain ⟨hb', hback⟩ := back_ih hclear.2 hm
    rw [List.foldl_append]
    exact ⟨hb', hfront.trans hback⟩
  | @start x tag found b _ _ _ _ ih =>
    have hopened := hb.after (s := .enter) trivial
    rw [← Binder.sizes_opened (x := x) b tag found] at hopened
    exact ih (fun h => hclear (List.mem_cons_of_mem _ h)) hopened
  | body hm _ ih =>
    obtain ⟨hm', hgrows⟩ := ih (fun h => hclear (List.mem_cons_of_mem _ h)) (hb.closing hm)
    exact ⟨hm', Nat.le_of_succ_le hgrows.1, hgrows.2⟩
  | ending hm _ _ bodies_ih ends_ih =>
    simp only [List.mem_cons, List.mem_append, not_or] at hclear
    obtain ⟨-, hasked, -, hmore⟩ := hclear
    obtain ⟨hbodies, hgrows⟩ := bodies_ih hasked (hb.closing hm)
    obtain ⟨hresumed, hresume, -⟩ := hbodies.resumed hgrows
    obtain ⟨hends, hgrows'⟩ := ends_ih hmore hresumed
    simp only [List.foldl_cons, List.foldl_append]
    exact ⟨hends, hresume.trans hgrows'⟩
  | close hm _ _ bodies_ih ends_ih =>
    simp only [List.mem_cons, List.mem_append, not_or] at hclear
    obtain ⟨-, hasked, -, hmore, -⟩ := hclear
    obtain ⟨hbodies, hgrows⟩ := bodies_ih hasked (hb.closing hm)
    obtain ⟨hresumed, hresume, hlt⟩ := hbodies.resumed hgrows
    obtain ⟨hends, hgrows'⟩ := ends_ih hmore hresumed
    obtain ⟨hpos, hleave⟩ := hresume.leave hlt hgrows'
    have hleft := hends.after (s := .leave) hpos
    rw [← Binder.sizes_leave] at hleft
    simp only [List.foldl_cons, List.foldl_append, List.foldl_nil]
    exact ⟨hleft, hleave⟩
  | clear => exact absurd List.mem_cons_self hclear

/-! ### Whole histories -/

/-- An exchange forgets everything at its very end or not at all. -/
theorem Writes.drifted {e : Exchange} {b b' : Binder κ} {shifts : List Shift}
    (h : Writes allowed e shifts) (hserved : Served b shifts b') (hclear : ¬ allowed .clear)
    {d : Drift} (hb : b.sizes.Drifted d) : b'.sizes.Drifted (shifts.foldl Drift.shifted d) := by
  have hforgets : ∀ asked : List Shift, shifts = asked ++ [.clear] →
      b'.sizes.Drifted (shifts.foldl Drift.shifted d) := by
    rintro asked rfl
    rw [hserved.sizes_eq, List.foldl_append, List.foldl_append]
    exact ⟨rfl, rfl⟩
  obtain ⟨r, answer⟩ := e
  cases r with
  | event e => exact (hserved.drifted (h.clear_notMem hclear) hb).1
  | endDocument =>
    cases h with
    | endDocument => exact hforgets _ rfl
  | clear =>
    cases h with
    | clear => exact hforgets [] rfl
  | reset =>
    cases h with
    | reset => exact hforgets [] rfl

/-- Where rules ask for nothing, the shifts tell of an exchange what its answer tells. -/
theorem Writes.foldl_shifted {e : Exchange} {shifts : List Shift} (h : Writes allowed e shifts)
    (hnone : ∀ s, ¬ allowed s) (d : Drift) : shifts.foldl Drift.shifted d = d.after e := by
  have hnil : ∀ {asked : List Shift}, (∀ s ∈ asked, allowed s) → asked = [] :=
    fun hallowed => List.eq_nil_iff_forall_not_mem.mpr fun s hs => hnone s (hallowed s hs)
  cases h with
  | pass e => cases e <;> rfl
  | unbalanced => rfl
  | start _ _ h => rw [hnil h]; rfl
  | close _ h h' => rw [hnil h, hnil h']; rfl
  | body _ hphase h => rw [hnil h, Drift.after, if_pos hphase]; rfl
  | ending _ hphase h h' =>
    rw [hnil h, hnil h', Drift.after, if_neg (by rw [hphase]; decide)]
    rfl
  | endDocument _ h => rw [hnil h]; rfl
  | clear | reset => rfl

theorem Written.unfinished_eq {history : List Exchange} {log : List Shift}
    (h : Written allowed history log) (hnone : ∀ s, ¬ allowed s) :
    unfinished log = drift history := by
  induction h with
  | new => rfl
  | ask _ hlast ih =>
    rw [unfinished, List.foldl_append, hlast.foldl_shifted hnone]
    exact congrArg (Drift.after · _) ih

/-- What requests do is asked for along a whole history. -/
theorem exists_written (hx : x.Asks allowed) {b b' : Binder κ} {history : List Exchange}
    (h : Answered x b history b')
    (hnames : ∀ tag answer, (.event (.start tag), answer) ∈ history → ProperName tag.name) :
    ∃ log, Served b log b' ∧ Written allowed history log ∧
      (b.sizes.Drifted {} → ¬ allowed .clear → b'.sizes.Drifted (unfinished log)) := by
  induction h with
  | new => exact ⟨[], .aside rfl, .new, fun hb _ => hb⟩
  | @ask past m b' r answer _ hrun ih =>
    obtain ⟨log, hserved, hwritten, hdrifted⟩ := ih fun tag answer hmem =>
      hnames tag answer (List.mem_cons_of_mem _ hmem)
    have hmeets := Request.meets_run hx (r := r) (fun tag htag => hnames tag answer
      (htag ▸ List.mem_cons_self)) m
    have hexchanges : Exchanges allowed (r, answer) m b' := by
      obtain ⟨⟨⟩, rfl, hok⟩ | ⟨cause, rfl, herror⟩ := Action.attempt_eq_ok hrun
      · exact (Action.meets_of_ok hok).mp hmeets
      · exact (Action.meets_of_error herror).mp hmeets cause rfl
    obtain ⟨shifts, hshifts, hwrites⟩ := hexchanges
    refine ⟨log ++ shifts, .append hserved hshifts, .ask hwritten hwrites, fun hb hclear => ?_⟩
    rw [unfinished, List.foldl_append]
    exact hwrites.drifted hshifts hclear (hdrifted hb hclear)

/-- **Depth and path.** Whatever a caller and the rules ask of a new binder and whatever the answers
are, the path has a segment for every path that is kept, and the numbers follow from the shifts. If
no rule has anything forgotten, a text more than the depth is kept for every end tag that failed in
a body since all was last forgotten, and a path more for every one that failed in a body or in an
end, those included that rules asked for. So the four numbers agree exactly as long as no end tag
has failed. If rules ask for nothing, the answers tell which end tags have. -/
theorem nesting_law (hx : x.Asks allowed) {b b' : Binder κ} (hb : b.Cleared)
    {history : List Exchange} (h : Answered x b history b')
    (hnames : ∀ tag answer, (.event (.start tag), answer) ∈ history → ProperName tag.name) :
    segmentCount b'.path = b'.outerPaths.length ∧
      ∃ log, Served b log b' ∧ Written allowed history log ∧
        b'.sizes = log.foldl Sizes.after {} ∧
        (¬ allowed .clear → b'.outerTexts.length = b'.depth + (unfinished log).bodies ∧
          b'.outerPaths.length = b'.depth + (unfinished log).bodies + (unfinished log).ends) ∧
        ((∀ s, ¬ allowed s) → unfinished log = drift history) := by
  obtain ⟨log, hserved, hwritten, hdrifted⟩ := exists_written hx h hnames
  have hsizes : b.sizes = {} := by
    unfold Binder.sizes Binder.depth
    rw [hb.matched, hb.outerTexts, hb.outerPaths]
    rfl
  obtain ⟨names, hsurrounded⟩ := hserved.surrounded (.nil hb.path hb.outerPaths)
  refine ⟨hsurrounded.segmentCount_eq, log, hserved, hwritten, ?_, fun hclear => ?_,
    hwritten.unfinished_eq⟩
  · rw [hserved.sizes_eq, hsizes]
  · have hnew : b.sizes.Drifted {} := by
      rw [hsizes]
      exact ⟨rfl, rfl⟩
    obtain ⟨htexts, hpaths⟩ := hdrifted hnew hclear
    exact ⟨htexts, hpaths⟩

/-- An end tag whose rule starts an element of its own and fails in the body, on a binder that goes
on. -/
theorem nesting_law_of_a_failed_body :
    let quiet : Extension Unit := ⟨fun _ => "starts", fun _ _ => pure ()⟩
    let child : Request := .event (.start ⟨"", "", "b", []⟩)
    let x : Extension Unit := ⟨fun _ => "starts", fun _ cb => match cb with
      | .body .. => (child.run quiet).attempt >>= fun _ => Action.fail (.custom "no")
      | _ => pure ()⟩
    let table : Table (RuleRef Unit) := ({} : Table _).register ['a'] ⟨0, .custom ()⟩
    let b : Binder Unit := { matcher := .plain table }
    let start : Request := .event (.start ⟨"", "", "a", []⟩)
    let close : Request := .event (.close ⟨"", "", "a"⟩)
    let s := (start.run x).after b
    let b' := (close.run x).after s
    let failure : RuleFailure := ⟨"starts", .body, "a/b", none, .custom "no"⟩
    let history : List Exchange := [(close, .error (.rule failure)), (start, .ok ())]
    x.Asks (· ≠ .clear) ∧ b.Cleared ∧ Answered x b history b' ∧
      (∀ tag answer, (.event (.start tag), answer) ∈ history → ProperName tag.name) ∧
      b'.sizes = ⟨1, 2, 2⟩ ∧
      segmentCount b'.path = b'.outerPaths.length ∧
      ∃ log, Served b log b' ∧ Written (· ≠ .clear) history log ∧
        b'.sizes = log.foldl Sizes.after {} ∧
        (¬ Shift.clear ≠ .clear → b'.outerTexts.length = b'.depth + (unfinished log).bodies ∧
          b'.outerPaths.length = b'.depth + (unfinished log).bodies + (unfinished log).ends) ∧
        ((∀ s, ¬ s ≠ Shift.clear) → unfinished log = drift history) := by
  intro quiet child x table b start close s b' failure history
  have hquiet : quiet.Asks (· ≠ .clear) := fun _ _ => (Action.keeps_pure _).asks
  have hchild : (child.run quiet).Asks (· ≠ .clear) := Request.asks_event hquiet (by
    rintro _ ⟨⟩
    exact ⟨by decide, by decide⟩)
  have hx : x.Asks (· ≠ .clear) := by
    rintro ⟨⟩ cb
    cases cb with
    | body => exact hchild.attempt.bind fun _ => (Action.keeps_fail _).asks
    | _ => exact (Action.keeps_pure _).asks
  have hb : b.Cleared := ⟨rfl, rfl, rfl, rfl, rfl, rfl, rfl, rfl, rfl⟩
  have hopens : ((start.run x).attempt : Action Unit BindError _) b = .ok (.ok ()) s :=
    Action.attempt_of_ok (Action.eq_ok_of_answer? (by decide +kernel))
  have hfails : ((close.run x).attempt : Action Unit BindError _) s =
      .ok (.error (.rule failure)) b' :=
    Action.attempt_of_error (Action.eq_error_of_error? (by decide +kernel))
  have hhistory : Answered x b history b' := .ask (.ask .new hopens) hfails
  have hnames : ∀ tag answer, (.event (.start tag), answer) ∈ history → ProperName tag.name := by
    intro tag answer hmem
    simp only [history, start, close, List.mem_cons, Prod.mk.injEq, Request.event.injEq,
      DocumentEvent.start.injEq, reduceCtorEq, false_and, List.not_mem_nil, or_false,
      false_or] at hmem
    obtain ⟨rfl, -⟩ := hmem
    exact ⟨by decide, by decide⟩
  exact ⟨hx, hb, hhistory, hnames, by decide +kernel, nesting_law hx hb hhistory hnames⟩

/-- Behind an end tag whose rule fails in the body, no element is open, and the path has a name. -/
theorem failed_body_leaves_a_name :
    let x : Extension Unit := ⟨fun _ => "fails", fun _ cb => match cb with
      | .body .. => Action.fail (.custom "no")
      | _ => pure ()⟩
    let table : Table (RuleRef Unit) := ({} : Table _).register ['a'] ⟨0, .custom ()⟩
    let b : Binder Unit := { matcher := .plain table }
    let s := (deliver x (.start ⟨"", "", "a", []⟩)).after b
    let b' := (deliver x (.close ⟨"", "", "a"⟩)).after s
    b'.capture.isNone ∧ b'.depth = 0 ∧ segmentCount b'.path = 1 ∧ b'.outerPaths.length = 1 ∧
      b'.outerTexts.length = 1 := by
  decide +kernel

end XmlBinding
