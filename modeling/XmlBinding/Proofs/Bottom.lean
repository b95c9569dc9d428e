import XmlBinding.Proofs.Stint

/-!
# The bottom of the stack

The root and the stack of objects are kept apart, and each is worked on by operations, by rules and
by the binder itself. Yet as long as nobody takes the root away from objects, the root is the object
at the bottom of the stack: it is set with the bottom, the bottom is never exchanged, and where the
stack is emptied nothing is asked of the root. So an object may be named from the bottom, as calls
with negative offsets do, or as the root. All of it holds inside the calls of rules as well, and
whether or not a document gets through.
-/
namespace XmlBinding

open XmlBinding.Action

variable {κ ε : Type} {x : Extension κ}

/-! ### Rooted piles -/

/-- The root is at the bottom of the objects, if there are any. -/
def Pile.Rooted (p : Pile) : Prop := p.stack ≠ [] → p.root = p.stack.bottom?

namespace Pile.Rooted

theorem of_empty {p : Pile} (h : p.stack = []) : p.Rooted := fun hne => absurd h hne

theorem push {p : Pile} (h : p.Rooted) (v : Value) : (p.push v).Rooted := by
  obtain ⟨stack, root⟩ := p
  intro _
  cases stack with
  | nil => rfl
  | cons w rest =>
    have hroot : root = Stack.bottom? (w :: rest) := h (List.cons_ne_nil w rest)
    show root = List.getLast? (v :: w :: rest)
    rw [List.getLast?_cons_cons]
    exact hroot

theorem pop {p : Pile} (h : p.Rooted) : p.pop.Rooted := by
  obtain ⟨stack, root⟩ := p
  intro hne
  match stack, h with
  | [], _ => exact absurd rfl hne
  | [v], _ => exact absurd rfl hne
  | v :: w :: rest, h =>
    have hroot : root = List.getLast? (v :: w :: rest) := h (List.cons_ne_nil v _)
    rw [List.getLast?_cons_cons] at hroot
    exact hroot

theorem moves {p q : Pile} {ms : List Move} (hms : Moves p ms q) (h : p.Rooted) : q.Rooted := by
  induction hms with
  | done => exact h
  | push _ ih => exact ih (h.push _)
  | pop _ _ ih => exact ih h.pop

theorem shifts {p q : Pile} (h : p.Rooted) (hshifts : Shifts p q) : q.Rooted := by
  obtain ⟨ms, -, hmoves⟩ := hshifts
  exact h.moves hmoves

end Pile.Rooted

/-- The pile stays rooted if the rules of the user's own leave it so. -/
theorem Stint.rooted {b s : Binder κ} {fs : List (Firing κ)} (h : Stint x b fs s)
    (hown : ∀ f ∈ fs, ∀ rule, f.call.rule.rule = .custom rule → f.before.pile.Rooted →
      f.after.pile.Rooted) (hb : b.pile.Rooted) : s.pile.Rooted := by
  induction h with
  | done => exact hb
  | pause hpause _ ih => exact ih hown (hb.shifts hpause.lull.shifts)
  | @opens b _ _ text _ ih => exact ih hown (hb.shifts (Lull.of_atStart b text).shifts)
  | forgets hpile _ _ ih =>
    refine ih hown (.of_empty ?_)
    rw [hpile]
  | @call ref cb b m _ _ hcall _ ih =>
    obtain ⟨hfirst, hrest⟩ := List.forall_mem_cons.mp hown
    have hrecorded := hb.shifts (Lull.of_recordCall x cb ref b).shifts
    refine ih hrest ?_
    obtain ⟨id, rule | rule⟩ := ref
    · rw [← hcall]
      exact hrecorded.shifts (StandardRule.stirs_fire rule cb _).shifts_after
    · exact hfirst rule rfl hrecorded

/-! ### Operations -/

/-- The binders that operations lead to, at any moment, if none of them takes the root away from
objects. A rule of the user's own has to work by operations as well, in the calls that are made. -/
inductive Operated (x : Extension κ) : Binder κ → Binder κ → Prop
  | start (b : Binder κ) : Operated x b b
  | push {b m : Binder κ} (h : Operated x b m) (v : Value) : Operated x b (m.push v)
  | pop {b m : Binder κ} (h : Operated x b m) : Operated x b m.pop.2
  | takeRoot {b m : Binder κ} (h : Operated x b m) (hempty : m.stack = []) :
      Operated x b { m with root := none }
  | clear {b m : Binder κ} (h : Operated x b m) : Operated x b m.clear
  | reset {b m : Binder κ} (h : Operated x b m) : Operated x b m.reset
  /-- Every other operation leaves the objects and the root alone. -/
  | aside {b m s : Binder κ} (h : Operated x b m) (hpile : s.pile = m.pile) : Operated x b s
  /-- Rules may also be called by hand. -/
  | call {b m : Binder κ} (h : Operated x b m) (rule : StandardRule) (cb : Callback) :
      Operated x b ((rule.fire cb).after m)
  | stint {b m s : Binder κ} {fs : List (Firing κ)} (h : Operated x b m) (hstint : Stint x m fs s)
      (hown : ∀ f ∈ fs, ∀ rule, f.call.rule.rule = .custom rule → Operated x f.before f.after) :
      Operated x b s

/-- If the rule that is called is one of the user's own, it works by operations. -/
def Firing.Operates (x : Extension κ) (f : Firing κ) : Prop :=
  ∀ rule, f.call.rule.rule = .custom rule → Operated x f.before f.after

namespace Operated

variable {b m s : Binder κ} {fs gs : List (Firing κ)}

theorem rooted (h : Operated x b s) (hb : b.pile.Rooted) : s.pile.Rooted := by
  induction h with
  | start => exact hb
  | push _ v ih =>
    rw [Binder.pile_push]
    exact (ih hb).push v
  | pop _ ih =>
    rw [Binder.pile_pop]
    exact (ih hb).pop
  | takeRoot _ hempty _ => exact .of_empty hempty
  | clear => exact .of_empty rfl
  | reset => exact .of_empty rfl
  | aside _ hpile ih =>
    rw [hpile]
    exact ih hb
  | call _ rule cb ih => exact (ih hb).shifts (StandardRule.stirs_fire rule cb _).shifts_after
  | stint _ hstint _ ih hown => exact hstint.rooted hown (ih hb)

/-- What a rule finds that is called in a stint has come about by operations. -/
theorem before {f : Firing κ} (h : Operated x b m) (hstint : Stint x m (fs ++ f :: gs) s)
    (hown : ∀ g ∈ fs, g.Operates x) : Operated x b f.before := by
  obtain ⟨s', hs', hbefore⟩ := hstint.before
  rw [hbefore, Binder.recordCall_eq]
  exact .aside (.stint h hs' hown) rfl

end Operated

/-! ### Targets of calls -/

namespace StandardRule

variable {s : Binder κ} {v : Value}

/-- A negative offset counts from the bottom of the stack. -/
theorem callTarget_of_value {k : Nat} (hk : 1 ≤ k) (hv : s.stack.reverse[k - 1]? = some v) :
    callTarget (-k) s =
      if v.isNull then .error (.error (.noCallTarget (-k) s.stack.length)) s else .ok v s := by
  have hlt : k - 1 < s.stack.length := by
    have hreverse := (List.getElem?_eq_some_iff.mp hv).1
    rwa [List.length_reverse] at hreverse
  have hindex : s.stack[s.stack.length - k]? = some v := by
    have hsame : s.stack.length - 1 - (k - 1) = s.stack.length - k := by omega
    rw [← hv, List.getElem?_reverse hlt, hsame]
  have hneg : ¬ (0 : Int) ≤ -(k : Int) := by omega
  have habs : (-(k : Int)).natAbs = k := by omega
  unfold callTarget callIndex?
  rw [get_bind_run]
  simp only [if_neg hneg, habs, if_pos (show k ≤ s.stack.length by omega)]
  rw [bind_run_of_ok (peek_of_below? hindex)]
  cases v <;> rfl

/-- Below the bottom there is no target. -/
theorem callTarget_below {k : Nat} (hk : s.stack.length < k) :
    callTarget (-k) s = .error (.error (.noCallTarget (-k) s.stack.length)) s := by
  have hneg : ¬ (0 : Int) ≤ -(k : Int) := by omega
  have habs : (-(k : Int)).natAbs = k := by omega
  unfold callTarget callIndex?
  rw [get_bind_run]
  simp only [if_neg hneg, habs, if_neg (show ¬ k ≤ s.stack.length by omega)]
  rfl

/-- A link to the root is a call of the root with the top object. -/
theorem linkEnds_root {root child : Value} (hroot : s.root = some root)
    (hchild : s.stack.head? = some child) : linkEnds .root s = .ok (root, child) s := by
  have hpeek : s.stack[0]? = some child := by rwa [← List.head?_eq_getElem?]
  have htop : top LinkTarget.root.ruleName s = .ok child s := by
    unfold top
    rw [bind_run_of_ok (peek_of_below? hpeek)]
    rfl
  unfold linkEnds
  rw [bind_run_of_ok htop]
  dsimp only
  rw [get_bind_run, hroot]
  rfl

end StandardRule

/-- **The bottom of the stack is the root.** Whatever is done with a binder that begins without
objects, as long as nobody takes the root away from objects: if there are objects, the root is the
one at the bottom. So a call with the offset `-1` and a link to the root have the same target. The
offset `-k` selects the object number `k` from the bottom, and there is no target if there are fewer
objects or if Null is in that place. This includes all that an event, the end of a document or a text
makes of the binder, and what every rule finds that is called on the way. -/
theorem bottom_law {b s : Binder κ} (hnew : b.stack = []) (h : Operated x b s) :
    (s.stack ≠ [] → s.root = s.stack.bottom?) ∧
    (∀ root, s.stack.bottom? = some root → root.isNull = false →
      StandardRule.callTarget (-1) s = .ok root s ∧
      ∃ child, s.stack.head? = some child ∧ StandardRule.linkEnds .root s = .ok (root, child) s) ∧
    (∀ k : Nat, 1 ≤ k →
      (∀ v, s.stack.reverse[k - 1]? = some v → StandardRule.callTarget (-k) s =
        if v.isNull then .error (.error (.noCallTarget (-k) s.stack.length)) s else .ok v s) ∧
      (s.stack.length < k → StandardRule.callTarget (-k) s =
        .error (.error (.noCallTarget (-k) s.stack.length)) s)) ∧
    ∀ e : Errand, ∃ fs, Stint x s fs (e.after x s) ∧
      ((∀ f ∈ fs, f.Operates x) → Operated x b (e.after x s)) ∧
      ∀ front f back, fs = front ++ f :: back → (∀ g ∈ front, g.Operates x) →
        Operated x b f.before := by
  have hrooted : s.stack ≠ [] → s.root = s.stack.bottom? := h.rooted (.of_empty hnew)
  refine ⟨hrooted, fun root hbottom hnull => ?_, fun k hk => ⟨fun v hv => ?_, fun hlt => ?_⟩,
    fun e => ?_⟩
  · have hfirst : s.stack.reverse[1 - 1]? = some root := by
      rw [← List.head?_eq_getElem?, List.head?_reverse]
      exact hbottom
    have hne : s.stack ≠ [] := by
      intro hempty
      rw [hempty] at hbottom
      cases hbottom
    refine ⟨?_, s.stack.head hne, List.head?_eq_some_head hne, ?_⟩
    · have htarget := StandardRule.callTarget_of_value (Nat.le_refl 1) hfirst
      rw [hnull] at htarget
      exact htarget
    · exact StandardRule.linkEnds_root ((hrooted hne).trans hbottom) (List.head?_eq_some_head hne)
  · exact StandardRule.callTarget_of_value hk hv
  · exact StandardRule.callTarget_below hlt
  · obtain ⟨fs, hfs⟩ := e.exists_stint x s
    refine ⟨fs, hfs, h.stint hfs, fun front f back hcut hfront => ?_⟩
    rw [hcut] at hfs
    exact h.before hfs hfront

/-- A rule of the user's own that puts a text on the stack whenever it is called, used for a whole
document and then in the middle of another one. -/
theorem bottom_law_of_a_pushing_rule :
    let x : Extension Unit := ⟨fun _ => "Push", fun _ _ => Action.push (.text "v")⟩
    let b : Binder Unit :=
      { matcher := .plain (({} : Table _).register ['a'] ⟨0, .custom ()⟩) }
    let read := (Errand.parse "<a/>").after x b
    let s := ((Errand.event (.start ⟨"", "a", "a", []⟩)).after x read).push .null
    b.stack = [] ∧ Operated x b s ∧ s.stack.length = 2 ∧ s.root = s.stack.bottom? ∧
      ∃ root child, StandardRule.callTarget (-1) s = .ok root s ∧
        StandardRule.linkEnds .root s = .ok (root, child) s := by
  intro x b read s
  have hown {m s : Binder Unit} {fs : List (Firing Unit)} (hfs : Stint x m fs s) :
      ∀ f ∈ fs, f.Operates x := by
    intro f hf rule hrule
    have hafter := hfs.after_eq f hf
    unfold RuleRef.fire at hafter
    rw [hrule] at hafter
    rw [← hafter]
    exact .push (.start f.before) (.text "v")
  obtain ⟨fs, hfs⟩ := (Errand.parse "<a/>").exists_stint x b
  obtain ⟨gs, hgs⟩ := (Errand.event (.start ⟨"", "a", "a", []⟩)).exists_stint x read
  have hoperated : Operated x b s :=
    .push (.stint (.stint (.start b) hfs (hown hfs)) hgs (hown hgs)) .null
  have hlength : s.stack.length = 2 := by decide +kernel
  have hbottom : s.stack.bottom?.map Value.isNull = some false := by decide +kernel
  obtain ⟨root, hroot, hnull⟩ := Option.map_eq_some_iff.mp hbottom
  obtain ⟨hrooted, hsame, -, -⟩ := bottom_law rfl hoperated
  obtain ⟨hcall, child, -, hlink⟩ := hsame root hroot hnull
  refine ⟨rfl, hoperated, hlength, hrooted ?_, root, child, hcall, hlink⟩
  exact List.ne_nil_of_length_eq_add_one hlength

end XmlBinding
