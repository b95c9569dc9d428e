import XmlBinding.Dispatch
import XmlBinding.Proofs.Content
import XmlBinding.Proofs.Outcome

/-!
# Scenes

What the outcome of a document depends on: the matcher, the objects and where they stand, the open
elements, and the labels that are declared. Messages, counts, records and positions are left out, so
actions that differ in those only lead from a scene to the same scene.
-/
namespace XmlBinding

/-- A binder without what nobody asks for while a document is read. -/
structure Scene (κ : Type) where
  matcher : Matcher (RuleRef κ)
  stack : Stack Value
  path : String
  outerPaths : List String
  matched : List (List (RuleRef κ))
  text : String
  outerTexts : List String
  capture : Option Capture
  substitutor : Option Substitutor
  /-- The namespaces of each label, the innermost first. -/
  spaces : String → List String
  heap : Heap

variable {κ ε ε' α β : Type}

namespace Binder

/-- The namespaces of a label, the innermost first. -/
def spaces (b : Binder κ) (label : String) : List String := (b.bindings.get? label).getD []

def scene (b : Binder κ) : Scene κ :=
  ⟨b.matcher, b.stack, b.path, b.outerPaths, b.matched, b.text, b.outerTexts, b.capture,
    b.substitutor, b.spaces, b.heap⟩

/-- A message changes the journal at most. -/
theorem note_eq (b : Binder κ) (level : Level) (channel : Channel) (text : String) :
    b.note level channel text = { b with journal := (b.note level channel text).journal } := by
  unfold note
  split <;> rfl

theorem push_eq (b : Binder κ) (v : Value) : b.push v =
    { b with
      stack := v :: b.stack
      root := if b.stack.isEmpty then some v else b.root
      journal := (b.push v).journal } := by
  unfold push note
  dsimp only
  split <;> split <;> rfl

theorem recordCall_eq (b : Binder κ) (x : Extension κ) (cb : Callback) (ref : RuleRef κ) :
    b.recordCall x cb ref =
      { b with
        metrics := b.metrics.countCall cb.phase
        calls := ⟨ref, cb⟩ :: b.calls
        journal := (b.recordCall x cb ref).journal } := by
  unfold recordCall note
  dsimp only
  split
  · rfl
  · split <;> rfl

@[simp] theorem scene_note (b : Binder κ) (level : Level) (channel : Channel) (text : String) :
    (b.note level channel text).scene = b.scene := by
  rw [note_eq]
  rfl

theorem scene_push (b : Binder κ) (v : Value) :
    (b.push v).scene = { b.scene with stack := v :: b.stack } := by
  rw [push_eq]
  rfl

theorem scene_recordCall (x : Extension κ) (cb : Callback) (ref : RuleRef κ) (b : Binder κ) :
    (b.recordCall x cb ref).scene = b.scene := by
  rw [recordCall_eq]
  rfl

end Binder

namespace Action

variable {act : Action κ ε α} {b : Binder κ} {a : α} {s m s' : Scene κ}

/-- The action gets through, with this answer and to this scene. -/
def Shows (act : Action κ ε α) (b : Binder κ) (a : α) (s : Scene κ) : Prop :=
  ∃ b', act b = .ok a b' ∧ b'.scene = s

/-- From wherever the scene is `s`, the action gets through to `s'`. -/
def Leads (act : Action κ ε α) (s : Scene κ) (a : α) (s' : Scene κ) : Prop :=
  ∀ b : Binder κ, b.scene = s → act.Shows b a s'

/-- From wherever the scene is `s`, the action gets through, and `good` holds of its answer and the
scene it gets to. -/
def Reaches (act : Action κ ε α) (s : Scene κ) (good : α → Scene κ → Prop) : Prop :=
  ∀ b : Binder κ, b.scene = s → ∃ a b', act b = .ok a b' ∧ good a b'.scene

theorem Leads.reaches {good : α → Scene κ → Prop} (h : act.Leads s a s') (hgood : good a s') :
    act.Reaches s good := by
  intro b hb
  obtain ⟨b', hb', hs'⟩ := h b hb
  exact ⟨a, b', hb', hs'.symm ▸ hgood⟩

theorem Reaches.bind {f : α → Action κ ε β} {mid : α → Scene κ → Prop}
    {good : β → Scene κ → Prop} (h : act.Reaches s mid)
    (hf : ∀ a m, mid a m → (f a).Reaches m good) : (act >>= f).Reaches s good := by
  intro b hb
  obtain ⟨a, b', hb', hmid⟩ := h b hb
  obtain ⟨c, b'', hb'', hgood⟩ := hf a _ hmid b' rfl
  exact ⟨c, b'', bind_eq_ok.mpr ⟨a, b', hb', hb''⟩, hgood⟩

theorem Reaches.mono {good good' : α → Scene κ → Prop} (h : act.Reaches s good)
    (himp : ∀ a m, good a m → good' a m) : act.Reaches s good' := by
  intro b hb
  obtain ⟨a, b', hb', hgood⟩ := h b hb
  exact ⟨a, b', hb', himp _ _ hgood⟩

theorem Shows.bind {f : α → Action κ ε β} {c : β} (h : act.Shows b a m)
    (hf : (f a).Leads m c s') : (act >>= f).Shows b c s' := by
  obtain ⟨b', hb', hm⟩ := h
  obtain ⟨b'', hb'', hs'⟩ := hf b' hm
  exact ⟨b'', bind_eq_ok.mpr ⟨a, b', hb', hb''⟩, hs'⟩

theorem Leads.bind {f : α → Action κ ε β} {c : β} (h : act.Leads s a m)
    (hf : (f a).Leads m c s') : (act >>= f).Leads s c s' := fun b hb => (h b hb).bind hf

theorem leads_pure (a : α) (s : Scene κ) : (pure a : Action κ ε α).Leads s a s :=
  fun b hb => ⟨b, rfl, hb⟩

/-- A step that looks at the binder. -/
theorem leads_get_bind {f : Binder κ → Action κ ε β} {c : β}
    (h : ∀ b, b.scene = s → (f b).Shows b c s') : (get >>= f).Leads s c s' := h

theorem leads_modify {f : Binder κ → Binder κ} (h : ∀ b, b.scene = s → (f b).scene = s') :
    (modify f : Action κ ε PUnit).Leads s ⟨⟩ s' := fun b hb => ⟨f b, rfl, h b hb⟩

theorem leads_modifyGet {f : Binder κ → α × Binder κ}
    (h : ∀ b, b.scene = s → (f b).1 = a ∧ (f b).2.scene = s') :
    (modifyGet f : Action κ ε α).Leads s a s' := fun b hb =>
  ⟨(f b).2, by rw [← (h b hb).1]; rfl, (h b hb).2⟩

theorem leads_note (level : Level) (channel : Channel) (text : String) (s : Scene κ) :
    (note level channel text : Action κ ε Unit).Leads s () s :=
  leads_modify fun b hb => by rw [b.scene_note, hb]

theorem Leads.discard (h : act.Leads s a s') : (Functor.discard act).Leads s () s' := by
  intro b hb
  obtain ⟨b', hb', hs'⟩ := h b hb
  refine ⟨b', ?_, hs'⟩
  simp only [Functor.discard, Functor.mapConst, Function.comp, EStateM.map, hb']

theorem Leads.attempt (h : act.Leads s a s') :
    (act.attempt : Action κ ε' (Except ε α)).Leads s (.ok a) s' := by
  intro b hb
  obtain ⟨b', hb', hs'⟩ := h b hb
  refine ⟨b', ?_, hs'⟩
  simp only [Action.attempt, hb']

/-! ### The stack of objects -/

theorem leads_push (v : Value) (s : Scene κ) :
    (push v : Action κ ε Unit).Leads s () { s with stack := v :: s.stack } :=
  leads_modify fun b hb => by
    subst hb
    exact b.scene_push v

theorem leads_pop {v : Value} {below : Stack Value} (h : s.stack = v :: below) :
    (pop : Action κ ε (Option Value)).Leads s (some v) { s with stack := below } :=
  leads_modifyGet fun b hb => by
    subst hb
    have hstack : b.stack = v :: below := h
    unfold Binder.pop
    rw [hstack]
    exact ⟨rfl, rfl⟩

theorem leads_peek {n : Nat} {v : Value} (h : s.stack.below? n = some v) :
    (peek n : Action κ ε (Option Value)).Leads s (some v) s := by
  intro b hb
  subst hb
  exact ⟨b, peek_of_below? h, rfl⟩

/-! ### Objects -/

theorem leads_showAccess (e : Binder κ → Event) (s : Scene κ) :
    (showAccess e : Action κ ε Unit).Leads s () s :=
  leads_modify fun b hb => by
    subst hb
    split <;> rfl

theorem leads_commit {γ : Type} {r : Except CallError γ × Heap} {c : γ} {h : Heap}
    (hr : r = (.ok c, h)) (s : Scene κ) :
    (commit r : Action κ RuleError γ).Leads s c { s with heap := h } := by
  subst hr
  intro b hb
  subst hb
  exact ⟨{ b with heap := h }, rfl, rfl⟩

theorem leads_setProperty {target v : Value} {property : String} {h : Heap}
    (hr : s.heap.setProperty target property v = (.ok (), h)) :
    (setProperty target property v : Action κ RuleError Unit).Leads s () { s with heap := h } := by
  refine (leads_showAccess _ s).bind (leads_get_bind fun b hb => ?_)
  subst hb
  exact leads_commit hr _ b rfl

theorem leads_invoke {target : Value} {method : String} {args ready : List Value}
    {types : List ScalarType} {id : ObjectId} {bean : Bean} {v : Value} {h : Heap}
    (hp : s.heap.prepare target method args types = .ok (id, bean, ready))
    (hr : s.heap.call id bean method ready = (.ok v, h)) :
    (invoke target method args types : Action κ RuleError Value).Leads s v
      { s with heap := h } := by
  refine (leads_showAccess _ s).bind (leads_get_bind fun b hb => ?_)
  subst hb
  have hready : b.heap.prepare target method args types = .ok (id, bean, ready) := hp
  rw [hready]
  exact (leads_note _ _ _ b.scene).bind (leads_commit hr b.scene) b rfl

end Action

/-! ### Calls of rules -/

variable {x : Extension κ} {s m s' : Scene κ}

theorem leads_callRule {cb : Callback} {ref : RuleRef κ} (h : (ref.fire x cb).Leads s () s') :
    (callRule x cb ref).Leads s () s' := by
  refine (Action.leads_modify fun b hb => ?_).bind (h.attempt.bind (Action.leads_pure _ _))
  rw [b.scene_recordCall, hb]

theorem leads_callRules_cons {cb : Callback} {ref : RuleRef κ} {rest : List (RuleRef κ)}
    (h : (ref.fire x cb).Leads s () m) (hrest : (callRules x cb rest).Leads m () s') :
    (callRules x cb (ref :: rest)).Leads s () s' := (leads_callRule h).bind hrest

theorem leads_callRules_nil (cb : Callback) (s : Scene κ) : (callRules x cb []).Leads s () s :=
  Action.leads_pure _ _

/-- Rules that do nothing. -/
theorem leads_callRules_idle {cb : Callback} {refs : List (RuleRef κ)}
    (h : ∀ ref ∈ refs, (ref.fire x cb).Leads s () s) : (callRules x cb refs).Leads s () s := by
  induction refs with
  | nil => exact leads_callRules_nil cb s
  | cons ref rest ih =>
    exact leads_callRules_cons (h ref List.mem_cons_self)
      (ih fun other hother => h other (List.mem_cons_of_mem _ hother))

end XmlBinding
