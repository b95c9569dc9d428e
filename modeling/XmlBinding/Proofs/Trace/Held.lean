import XmlBinding.Proofs.Trace

/-!
# What only calls change

The frames, the named stacks and the matcher belong to the rules. Between two calls they stay as
they are, whatever events there are in between, so along the trace of a document the binder that one
call leaves has the same of them as the binder that the next one finds.
-/
namespace XmlBinding

variable {κ γ δ : Type} {x : Extension κ}

/-- What only rules work on. -/
structure Held (κ : Type) where
  params : Stack (List Value)
  named : NamedStacks Value
  matcher : Matcher (RuleRef κ)

namespace Binder

def held (b : Binder κ) : Held κ := ⟨b.params, b.named, b.matcher⟩

theorem held_note (b : Binder κ) (level : Level) (channel : Channel) (text : String) :
    (b.note level channel text).held = b.held := by
  unfold note
  split <;> rfl

theorem held_recordCall (x : Extension κ) (cb : Callback) (ref : RuleRef κ) (b : Binder κ) :
    (b.recordCall x cb ref).held = b.held := by
  unfold recordCall
  split
  · rfl
  · exact held_note ..

theorem held_opened (b : Binder κ) (tag : StartTag) (found : List (RuleRef κ)) :
    (b.opened x tag found).held = b.held :=
  held_note ..

theorem held_push (b : Binder κ) (v : Value) : (b.push v).held = b.held := by
  unfold push
  dsimp only
  split <;> exact held_note ..

theorem held_endCapture (b : Binder κ) : b.endCapture.held = b.held := by
  unfold endCapture
  split
  · exact held_push ..
  · rfl

theorem held_closing (b : Binder κ) (outer : List (List (RuleRef κ))) :
    (b.closing outer).held = b.held :=
  (held_note ..).trans b.held_endCapture

theorem held_leave (b : Binder κ) : b.leave.held = b.held := by
  unfold leave
  split <;> rfl

theorem held_characters (b : Binder κ) (content : String) :
    (b.characters content).held = b.held := by
  unfold characters
  split <;> rfl

theorem held_of_unread {s b : Binder κ} (h : s.unread = b.unread) : s.held = b.held := by
  have hheld := congrArg held h
  exact hheld

end Binder

/-! ### Traces -/

/-- Calls one after the other between which `view` of the binder stays, with what it is in front of
them and behind them. -/
inductive Linked (view : Binder κ → γ) : γ → List (Firing κ) → γ → Prop
  | nil (a : γ) : Linked view a [] a
  | cons {f : Firing κ} {fs : List (Firing κ)} {a c : γ} (hbefore : view f.before = a)
      (hrest : Linked view (view f.after) fs c) : Linked view a (f :: fs) c

namespace Linked

variable {view : Binder κ → γ} {fs gs : List (Firing κ)} {a b c : γ}

theorem append (h : Linked view a fs b) (h' : Linked view b gs c) :
    Linked view a (fs ++ gs) c := by
  induction h with
  | nil => exact h'
  | cons hbefore _ ih => exact .cons hbefore (ih h')

theorem split (h : Linked view a (fs ++ gs) c) :
    ∃ b, Linked view a fs b ∧ Linked view b gs c := by
  induction fs generalizing a with
  | nil => exact ⟨a, .nil a, h⟩
  | cons f rest ih =>
    cases h with
    | cons hbefore hrest =>
      obtain ⟨b, hfront, hback⟩ := ih hrest
      exact ⟨b, .cons hbefore hfront, hback⟩

/-- What shows less is linked as well. -/
theorem map (g : γ → δ) (h : Linked view a fs c) : Linked (g ∘ view) (g a) fs (g c) := by
  induction h with
  | nil a => exact .nil (g a)
  | cons hbefore _ ih => exact .cons (congrArg g hbefore) ih

end Linked

variable {b b' : Binder κ} {fs : List (Firing κ)}

theorem Called.linked {cb : Callback} {refs : List (RuleRef κ)} (h : Called x cb refs b fs b') :
    Linked Binder.held b.held fs b'.held := by
  induction h with
  | nil b => exact .nil b.held
  | cons _ _ ih => exact .cons (Binder.held_recordCall ..) ih

theorem Answers.linked {e : DocumentEvent} (h : Answers x e b fs b') :
    Linked Binder.held b.held fs b'.held := by
  cases h with
  | text content =>
    rw [b.held_characters content]
    exact .nil _
  | startInside | closeInside => exact .nil _
  | start _ _ hcalled =>
    rw [← b.held_opened (x := x)]
    exact hcalled.linked
  | @close _ _ m m' found outer _ _ _ _ hbodies hends =>
    have hbody := hbodies.linked
    rw [b.held_closing outer] at hbody
    rw [m'.held_leave]
    exact hbody.append hends.linked

theorem Delivered.linked {es : List DocumentEvent} (h : Delivered x es b fs b') :
    Linked Binder.held b.held fs b'.held := by
  induction h with
  | done hb =>
    rw [Binder.held_of_unread hb]
    exact .nil _
  | step hs he _ ih =>
    rw [← Binder.held_of_unread hs]
    exact he.linked.append ih

theorem Passage.linked {tag : StartTag} {inner : Content} {closing : EndTag}
    (p : Passage x tag inner closing b b') :
    Linked Binder.held p.entry.held p.firings b'.held := by
  have hstarts := p.starts.linked
  have hbodies := p.bodies.linked
  rw [p.entry.held_opened] at hstarts
  rw [p.filled.held_closing] at hbodies
  have hleave : b'.held = p.ended.held := (congrArg Binder.held p.leave_eq).trans p.ended.held_leave
  rw [hleave]
  exact ((hstarts.append p.content.linked).append hbodies).append p.ends.linked

/-! ### Single calls -/

/-- The call led from the binder that it found to the one that it left. -/
def Firing.Fires (x : Extension κ) (f : Firing κ) : Prop :=
  f.call.rule.fire x f.call.callback f.before = .ok () f.after

theorem Called.fires {cb : Callback} {refs : List (RuleRef κ)} (h : Called x cb refs b fs b') :
    ∀ f ∈ fs, f.Fires x := by
  induction h with
  | nil => exact List.forall_mem_nil _
  | cons hfire _ ih => exact List.forall_mem_cons.mpr ⟨hfire, ih⟩

theorem Answers.fires {e : DocumentEvent} (h : Answers x e b fs b') : ∀ f ∈ fs, f.Fires x := by
  cases h with
  | text | startInside | closeInside => exact List.forall_mem_nil _
  | start _ _ hcalled => exact hcalled.fires
  | close _ _ hbodies hends => exact List.forall_mem_append.mpr ⟨hbodies.fires, hends.fires⟩

theorem Delivered.fires {es : List DocumentEvent} (h : Delivered x es b fs b') :
    ∀ f ∈ fs, f.Fires x := by
  induction h with
  | done => exact List.forall_mem_nil _
  | step _ he _ ih => exact List.forall_mem_append.mpr ⟨he.fires, ih⟩

theorem Passage.fires {tag : StartTag} {inner : Content} {closing : EndTag}
    (p : Passage x tag inner closing b b') : ∀ f ∈ p.firings, f.Fires x := by
  unfold Passage.firings
  simp only [List.forall_mem_append]
  exact ⟨⟨⟨p.starts.fires, p.content.fires⟩, p.bodies.fires⟩, p.ends.fires⟩

end XmlBinding
