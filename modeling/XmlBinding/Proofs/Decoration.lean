import XmlBinding.Proofs.Account.Rules
import XmlBinding.Proofs.Balance
import XmlBinding.Proofs.Lockstep
import XmlBinding.Proofs.Trace.Held

/-!
# Decorations of open elements

A rule for nested properties decorates the matcher as long as its element is open. So at any moment
the matcher is the one of the start of the document with the decorations of all open elements around
it, those of the innermost element outermost. Of these only the decorations of the innermost element
reach an element that starts now: behind the path of any other one stands more than one name.
-/
namespace XmlBinding

open Generic (pathInside)

/-! ### What single rules do to the matcher -/

namespace StandardRule

open XmlBinding.Action Binder

variable {κ : Type} {b b' : Binder κ}

/-- The other rules leave the matcher alone. -/
theorem keeps_matcher {rule : StandardRule} (h : rule.nested? = none) (cb : Callback) :
    (rule.fire cb : Action κ RuleError Unit).Keeps Binder.matcher := by
  by_cases hcapture : rule.startsCapture cb = true
  · cases rule <;> cases cb <;> simp only [startsCapture, Bool.false_eq_true] at hcapture
    exact keeps_modify fun _ => rfl
  · exact keeps_fire (fun _ => rfl) (fun _ => rfl) h (by simpa using hcapture)

theorem matcher_decorateChildren {config : NestedConfig}
    (h : (decorateChildren config : Action κ RuleError Unit) b = .ok () b') :
    ∃ id, b'.matcher = .decorated b.matcher (some (b.path ++ "/").toList)
      ⟨id, .standard (.nestedChild config)⟩ := by
  cases h
  exact ⟨_, rfl⟩

theorem matcher_undecorateChildren {inner : Matcher (RuleRef κ)} {place : Option (List Char)}
    {extra : RuleRef κ} (hb : b.matcher = .decorated inner place extra)
    (h : (undecorateChildren : Action κ RuleError Unit) b = .ok () b') : b'.matcher = inner :=
  congrArg Account.matcher ((meets_of_ok h).mp (meets_undecorateChildren hb))

end StandardRule

/-! ### The decorations of one element -/

/-- The configurations of the rules that decorate the matcher, in the order of the list. -/
def nestedConfigs (refs : List (RuleRef Empty)) : List NestedConfig :=
  refs.filterMap (·.standard.nested?)

theorem nestedConfigs_cons_none {ref : RuleRef Empty} (h : ref.standard.nested? = none)
    (rest : List (RuleRef Empty)) : nestedConfigs (ref :: rest) = nestedConfigs rest :=
  List.filterMap_cons_none h

theorem nestedConfigs_cons_some {ref : RuleRef Empty} {config : NestedConfig}
    (h : ref.standard.nested? = some config) (rest : List (RuleRef Empty)) :
    nestedConfigs (ref :: rest) = config :: nestedConfigs rest :=
  List.filterMap_cons_some h

/-- The rules that children get from the list of the element around them: one for each rule for
nested properties. -/
def ChildRules (parent kids : List (RuleRef Empty)) : Prop :=
  kids.map (·.rule) = (nestedConfigs parent).map fun config => .standard (.nestedChild config)

/-- A matcher around another one, with the decorations of some uses at one path, the last use first.
-/
inductive Wraps (path : String) (inner : Matcher (RuleRef Empty)) :
    List NestedConfig → Matcher (RuleRef Empty) → Prop
  | nil : Wraps path inner [] inner
  | cons {configs : List NestedConfig} {m : Matcher (RuleRef Empty)}
      (h : Wraps path inner configs m) (id : Nat) (config : NestedConfig) :
      Wraps path inner (config :: configs)
        (.decorated m (some (path ++ "/").toList) ⟨id, .standard (.nestedChild config)⟩)

section Calls

variable {refs : List (RuleRef Empty)} {b b' : Binder Empty} {fs : List (Firing Empty)}
  {uri name text path : String} {attrs : Attributes} {inner : Matcher (RuleRef Empty)}
  {configs : List NestedConfig}

namespace Binder

theorem matcher_recordCall (cb : Callback) (ref : RuleRef Empty) (b : Binder Empty) :
    (b.recordCall .none cb ref).matcher = b.matcher :=
  congrArg Held.matcher (b.held_recordCall .none cb ref)

theorem path_recordCall (cb : Callback) (ref : RuleRef Empty) (b : Binder Empty) :
    (b.recordCall .none cb ref).path = b.path :=
  congrArg Location.path (b.location_recordCall .none cb ref)

end Binder

/-- The starts of an element put up one decoration for each rule for nested properties. -/
theorem Called.wraps (h : Called .none (.start uri name attrs) refs b fs b') (hpath : b.path = path)
    (hw : Wraps path inner configs b.matcher) :
    Wraps path inner ((nestedConfigs refs).reverse ++ configs) b'.matcher := by
  induction h generalizing configs with
  | nil => exact hw
  | @cons ref rest b m b' fs hfire _ ih =>
    have hm : m.path = path := by
      have hlocation := (RuleRef.aloof_fire Extension.aloof_none hfire).1
      rw [b.location_recordCall] at hlocation
      exact (congrArg Location.path hlocation).trans hpath
    rw [RuleRef.fire_standard] at hfire
    cases hnested : ref.standard.nested? with
    | none =>
      have hsame := (StandardRule.keeps_matcher hnested _).of_ok hfire
      rw [nestedConfigs_cons_none hnested]
      exact ih hm (hsame.trans (b.matcher_recordCall _ ref) ▸ hw)
    | some config =>
      rw [StandardRule.eq_of_nested? hnested] at hfire
      obtain ⟨id, hdecorated⟩ := StandardRule.matcher_decorateChildren hfire
      rw [b.matcher_recordCall, b.path_recordCall, hpath] at hdecorated
      rw [nestedConfigs_cons_some hnested, List.reverse_cons, List.append_assoc]
      exact ih hm (hdecorated ▸ hw.cons id config)

/-- With the text of an element as many decorations come off as there are rules for nested
properties. -/
theorem Called.unwraps (h : Called .none (.body uri name text) refs b fs b')
    (hw : Wraps path inner configs b.matcher) (hlength : configs.length = (nestedConfigs refs).length) :
    b'.matcher = inner := by
  induction h generalizing configs with
  | nil b =>
    obtain rfl := List.eq_nil_of_length_eq_zero hlength
    generalize b.matcher = m at hw
    cases hw
    rfl
  | @cons ref rest b m b' fs hfire _ ih =>
    rw [RuleRef.fire_standard] at hfire
    cases hnested : ref.standard.nested? with
    | none =>
      have hsame := (StandardRule.keeps_matcher hnested _).of_ok hfire
      rw [nestedConfigs_cons_none hnested] at hlength
      exact ih (hsame.trans (b.matcher_recordCall _ ref) ▸ hw) hlength
    | some config =>
      rw [StandardRule.eq_of_nested? hnested] at hfire
      rw [nestedConfigs_cons_some hnested] at hlength
      cases hw' : b.matcher with
      | decorated m' place extra =>
        have hdecorated := (b.matcher_recordCall (.body uri name text) ref).trans hw'
        have hm := StandardRule.matcher_undecorateChildren hdecorated hfire
        rw [hw'] at hw
        cases hw with
        | nil => cases hlength
        | cons hw _ _ => exact ih (hm ▸ hw) (Nat.succ.inj hlength)
      | _ =>
        rw [hw'] at hw
        cases hw
        cases hlength

/-- The ends of an element leave the matcher alone. -/
theorem Called.matcher_close (h : Called .none (.close uri name) refs b fs b') :
    b'.matcher = b.matcher := by
  refine h.keeps (fun ref m m' hfire => ?_) fun ref b => b.matcher_recordCall (.close uri name) ref
  rw [RuleRef.fire_standard] at hfire
  cases hnested : ref.standard.nested? with
  | none => exact (StandardRule.keeps_matcher hnested _).of_ok hfire
  | some config =>
    rw [StandardRule.eq_of_nested? hnested] at hfire
    cases hfire
    rfl

end Calls

/-! ### Where a decoration reaches -/

theorem Matcher.reaches_append (front rest : List Char) :
    reaches (some front) (front ++ rest) = !rest.contains '/' := by
  simp [reaches]

namespace Wraps

variable {path : String} {inner m : Matcher (RuleRef Empty)} {configs : List NestedConfig}
  {q : List Char}

theorem rulesFor?_elsewhere (h : Wraps path inner configs m)
    (hq : Matcher.reaches (some (path ++ "/").toList) q = false) (uri name : String)
    (attrs : Attributes) : m.rulesFor? uri q name attrs = inner.rulesFor? uri q name attrs := by
  induction h with
  | nil => rfl
  | cons _ id config ih =>
    rw [Matcher.rulesFor?, ih, hq]
    simp

/-- A child gets one rule for each use, in the order of the uses. -/
theorem rulesFor?_child (h : Wraps path inner configs m)
    (hq : Matcher.reaches (some (path ++ "/").toList) q = true) :
    ∃ kids : List (RuleRef Empty),
      kids.map (·.rule) = configs.reverse.map (fun config => .standard (.nestedChild config)) ∧
      ∀ uri name attrs, m.rulesFor? uri q name attrs =
        (inner.rulesFor? uri q name attrs).map (· ++ kids) := by
  induction h with
  | nil => exact ⟨[], rfl, fun uri name attrs => by simp⟩
  | cons _ id config ih =>
    obtain ⟨kids, hkids, hfound⟩ := ih
    refine ⟨kids ++ [⟨id, .standard (.nestedChild config)⟩], ?_, fun uri name attrs => ?_⟩
    · rw [List.map_append, hkids, List.reverse_cons, List.map_append]
      rfl
    · rw [Matcher.rulesFor?, hfound, hq, Option.map_map]
      congr 1
      funext found
      simp

end Wraps

/-! ### The decorations of all open elements -/

theorem pathInside_ne_empty {name : String} (h : ProperName name) (path : String) :
    pathInside path name ≠ "" := by
  unfold pathInside
  split
  · exact h.1
  · exact fun hempty => h.1 (String.append_eq_empty_iff.mp hempty).2

theorem toList_pathInside {path : String} (h : path ≠ "") (name : String) :
    (pathInside path name).toList = (path ++ "/").toList ++ name.toList := by
  have hpath : path.isEmpty = false := Bool.eq_false_iff.mpr (mt String.isEmpty_iff.mp h)
  unfold pathInside
  rw [hpath, if_neg Bool.false_ne_true, String.toList_append]

/-- The matcher while some elements are open: around that of the start, element by element, the
decorations of the rules in its list. -/
inductive Layered (base : Matcher (RuleRef Empty)) :
    Location Empty → Matcher (RuleRef Empty) → Prop
  | bare (path : String) (outerPaths : List String) : Layered base ⟨path, outerPaths, []⟩ base
  | element {path name : String} {outerPaths : List String} {found : List (RuleRef Empty)}
      {matched : List (List (RuleRef Empty))} {inner m : Matcher (RuleRef Empty)}
      (h : Layered base ⟨path, outerPaths, matched⟩ inner) (hname : ProperName name)
      (hw : Wraps (pathInside path name) inner (nestedConfigs found).reverse m) :
      Layered base ⟨pathInside path name, path :: outerPaths, found :: matched⟩ m

namespace Layered

variable {base m : Matcher (RuleRef Empty)} {l : Location Empty}

theorem path_ne_empty (h : Layered base l m) (hmatched : l.matched ≠ []) : l.path ≠ "" := by
  cases h with
  | bare => exact absurd rfl hmatched
  | element _ hname _ => exact pathInside_ne_empty hname _

/-- The innermost element and what is around it. -/
theorem innermost (h : Layered base l m) {found : List (RuleRef Empty)}
    {matched : List (List (RuleRef Empty))} (hmatched : l.matched = found :: matched) :
    ∃ path outerPaths inner, l.outerPaths = path :: outerPaths ∧
      Layered base ⟨path, outerPaths, matched⟩ inner ∧
      Wraps l.path inner (nestedConfigs found).reverse m := by
  cases h with
  | bare => cases hmatched
  | element h _ hw =>
    obtain ⟨rfl, rfl⟩ := List.cons.inj hmatched
    exact ⟨_, _, _, rfl, h, hw⟩

/-- No decoration reaches an element with another one between it and the innermost open one. -/
theorem rulesFor?_below (h : Layered base l m) {q : List Char}
    (hq : l.matched = [] ∨ ∃ rest, q = (l.path ++ "/").toList ++ rest ∧ '/' ∈ rest)
    (uri name : String) (attrs : Attributes) :
    m.rulesFor? uri q name attrs = base.rulesFor? uri q name attrs := by
  induction h with
  | bare => rfl
  | @element path own outerPaths found matched inner m h _ hw ih =>
    obtain ⟨rest, rfl, hrest⟩ := hq.resolve_left (List.cons_ne_nil _ _)
    rw [hw.rulesFor?_elsewhere (by rw [Matcher.reaches_append]; simpa using hrest)]
    refine ih ?_
    cases matched with
    | nil => exact .inl rfl
    | cons first others =>
      have hpath : path ≠ "" := h.path_ne_empty (List.cons_ne_nil _ _)
      refine .inr ⟨own.toList ++ '/' :: rest, ?_, by simp⟩
      rw [String.toList_append, toList_pathInside hpath]
      simp

/-- An element that starts now has the rules of the matcher without any decoration, and then those
that its parent's rules for nested properties add. -/
theorem rulesFor?_eq (h : Layered base l m) {own : String} (hown : ProperName own) :
    ∃ kids, ChildRules (l.matched.headD []) kids ∧ ∀ uri name attrs,
      m.rulesFor? uri (pathInside l.path own).toList name attrs =
        (base.rulesFor? uri (pathInside l.path own).toList name attrs).map (· ++ kids) := by
  cases h with
  | bare path outerPaths => exact ⟨[], rfl, fun uri name attrs => by simp⟩
  | @element path around outerPaths found matched inner _ h haround hw =>
    have hsplit := toList_pathInside (pathInside_ne_empty haround path) own
    obtain ⟨kids, hkids, hfound⟩ := hw.rulesFor?_child (q := (pathInside _ own).toList)
      (by rw [hsplit, Matcher.reaches_append]; simpa using hown.2)
    refine ⟨kids, by rwa [List.reverse_reverse] at hkids, fun uri name attrs => ?_⟩
    rw [hfound, h.rulesFor?_below]
    cases matched with
    | nil => exact .inl rfl
    | cons first others =>
      have hpath : path ≠ "" := h.path_ne_empty (List.cons_ne_nil _ _)
      refine .inr ⟨around.toList ++ '/' :: own.toList, ?_, by simp⟩
      rw [hsplit, String.toList_append, toList_pathInside hpath]
      simp

variable {b b' : Binder Empty} {fs : List (Firing Empty)} {e : DocumentEvent}
  {es : List DocumentEvent}

/-- Behind the starts of an element its decorations are the outermost. -/
theorem start (h : Layered base b.location b.matcher) {tag : StartTag}
    {found : List (RuleRef Empty)} {attrs : Attributes} (hname : ProperName tag.name)
    (hstarts : Called .none (.start tag.uri tag.name attrs) found (b.opened .none tag found) fs b') :
    Layered base b'.location b'.matcher := by
  have hopened := b.location_opened (x := .none) tag found
  have hmatcher : (b.opened .none tag found).matcher = b.matcher :=
    congrArg Held.matcher (b.held_opened (x := .none) tag found)
  have hbare : Wraps (pathInside b.path tag.name) b.matcher [] (b.opened .none tag found).matcher :=
    hmatcher ▸ .nil
  have hw := hstarts.wraps (congrArg Location.path hopened) hbare
  rw [List.append_nil] at hw
  rw [(hstarts.aloof Extension.aloof_none).1, hopened]
  exact h.element hname hw

/-- Behind the ends of an element its decorations are gone. -/
theorem close (h : Layered base b.location b.matcher) {found : List (RuleRef Empty)}
    {outer : List (List (RuleRef Empty))} {uri name text : String} {gs : List (Firing Empty)}
    {m m' : Binder Empty} (hmatched : b.matched = found :: outer)
    (hbodies : Called .none (.body uri name text) found (b.closing outer) fs m)
    (hends : Called .none (.close uri name) found.reverse m.resumeText gs m') :
    Layered base m'.leave.location m'.leave.matcher := by
  obtain ⟨path, outerPaths, inner, houter, hinner, hw⟩ := h.innermost hmatched
  have hclosing : (b.closing outer).matcher = b.matcher :=
    congrArg Held.matcher (b.held_closing outer)
  have hmatcher : m'.matcher = inner :=
    hends.matcher_close.trans (hbodies.unwraps (hclosing ▸ hw) List.length_reverse)
  have hlocation : m'.location = ⟨b.path, b.outerPaths, outer⟩ :=
    (hends.aloof Extension.aloof_none).1.trans
      ((hbodies.aloof Extension.aloof_none).1.trans (b.location_closing outer))
  have hleave := Binder.leave_eq ((congrArg Location.outerPaths hlocation).trans houter)
  have hbehind : m'.leave.location = ⟨path, outerPaths, outer⟩ := by
    rw [hleave]
    exact congrArg (fun l : Location Empty => Location.mk path outerPaths l.matched) hlocation
  have hsame : m'.leave.matcher = inner := by
    rw [hleave]
    exact hmatcher
  rw [hbehind, hsame]
  exact hinner

/-- An event that gets through keeps the decorations to the open elements. -/
theorem answers (h : Layered base b.location b.matcher) (he : Answers .none e b fs b')
    (hname : ∀ tag, e = .start tag → ProperName tag.name) :
    Layered base b'.location b'.matcher := by
  cases he with
  | text content =>
    unfold Binder.characters
    split <;> exact h
  | startInside | closeInside => exact h
  | start _ _ hstarts => exact h.start (hname _ rfl) hstarts
  | close _ hmatched hbodies hends => exact h.close hmatched hbodies hends

theorem of_unread {s : Binder Empty} (h : Layered base b.location b.matcher)
    (hs : s.unread = b.unread) : Layered base s.location s.matcher := by
  have hmatcher : s.matcher = b.matcher := congrArg Held.matcher (Binder.held_of_unread hs)
  rwa [Binder.location_of_unread hs, hmatcher]

theorem delivered (h : Layered base b.location b.matcher) (hes : Delivered .none es b fs b')
    (hnames : ∀ tag, .start tag ∈ es → ProperName tag.name) :
    Layered base b'.location b'.matcher := by
  induction hes with
  | done hb => exact h.of_unread hb
  | step hs he _ ih =>
    refine ih ((h.of_unread hs).answers he fun tag htag => hnames tag ?_) fun tag htag =>
      hnames tag (List.mem_cons_of_mem _ htag)
    rw [htag]
    exact List.mem_cons_self

end Layered

end XmlBinding
