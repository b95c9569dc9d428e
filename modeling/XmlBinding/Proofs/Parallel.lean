import XmlBinding.Proofs.Outcome

/-!
# Two runs side by side

Two actions that do the same on binders that look the same. Both get through, with answers that
correspond and to binders that look the same again, or both fail with one cause, or neither has an
answer. `Follows` says so of all binders that are related; the lemmas below go through two actions
step by step, as those on outcomes go through one.
-/
namespace XmlBinding.Action

variable {κ ε ε' α β γ δ : Type}

/-- Two runs that end in the same way. The answer of the second one is told from that of the first.
-/
inductive Together (ρ : α → β) (good : α → Binder κ → Binder κ → Prop)
    (bad : Binder κ → Binder κ → Prop) :
    EStateM.Result (Halt ε) (Binder κ) α → EStateM.Result (Halt ε) (Binder κ) β → Prop
  | ok {a : α} {s b : Binder κ} (h : good a s b) : Together ρ good bad (.ok a s) (.ok (ρ a) b)
  | error {cause : ε} {s b : Binder κ} (h : bad s b) :
    Together ρ good bad (.error (.error cause) s) (.error (.error cause) b)
  | crash {s b : Binder κ} : Together ρ good bad (.error .crash s) (.error .crash b)

/-- From binders related by `before`, the second action follows the first: to binders related by
`behind` if they get through, and by `bad` if they fail. -/
structure Follows (before behind bad : Binder κ → Binder κ → Prop) (ρ : α → β)
    (act : Action κ ε α) (act' : Action κ ε β) : Prop where
  together : ∀ s b, before s b → Together ρ (fun _ => behind) bad (act s) (act' b)

variable {act : Action κ ε α} {act' : Action κ ε β} {ρ : α → β} {σ : γ → δ} {s b : Binder κ}
  {good : α → Binder κ → Binder κ → Prop} {before mid behind bad : Binder κ → Binder κ → Prop}

namespace Together

theorem mono {good' : α → Binder κ → Binder κ → Prop} {bad' : Binder κ → Binder κ → Prop}
    (h : Together ρ good bad (act s) (act' b)) (hgood : ∀ a s' b', good a s' b' → good' a s' b')
    (hbad : ∀ s' b', bad s' b' → bad' s' b') : Together ρ good' bad' (act s) (act' b) := by
  revert h
  generalize act s = r, act' b = r'
  rintro (h | h | _)
  · exact .ok (hgood _ _ _ h)
  · exact .error (hbad _ _ h)
  · exact .crash

/-- What the first action meets holds beside what the two have in common. -/
theorem and_meets {also : α → Binder κ → Prop} {alsoBad : Halt ε → Binder κ → Prop}
    (h : Together ρ good bad (act s) (act' b)) (hmeets : act.Meets s also alsoBad) :
    Together ρ (fun a s' b' => good a s' b' ∧ also a s') bad (act s) (act' b) := by
  unfold Meets at hmeets
  revert h hmeets
  generalize act s = r, act' b = r'
  rintro (h | h | _) hmeets
  · exact .ok ⟨h, hmeets⟩
  · exact .error h
  · exact .crash

theorem bind {f : α → Action κ ε γ} {g : β → Action κ ε δ} {good' : γ → Binder κ → Binder κ → Prop}
    (h : Together ρ good bad (act s) (act' b))
    (hf : ∀ a s' b', good a s' b' → Together σ good' bad (f a s') (g (ρ a) b')) :
    Together σ good' bad ((act >>= f) s) ((act' >>= g) b) := by
  simp only [Bind.bind, EStateM.bind]
  revert h
  generalize act s = r, act' b = r'
  rintro (h | h | _)
  · exact hf _ _ _ h
  · exact .error h
  · exact .crash

/-- Errors become answers on both sides, so that none is left. -/
theorem attempt {bad' : Binder κ → Binder κ → Prop} (h : Together ρ good bad (act s) (act' b)) :
    Together (ε := ε') (Except.map ρ)
      (fun r s' b' => match r with
        | .ok a => good a s' b'
        | .error _ => bad s' b')
      bad' (act.attempt s) (act'.attempt b) := by
  unfold Action.attempt
  revert h
  generalize act s = r, act' b = r'
  rintro (h | h | _)
  · exact .ok h
  · exact .ok h
  · exact .crash

end Together

/-! ### Single steps -/

theorem follows_pure (a : α) :
    Follows before before bad ρ (pure a : Action κ ε α) (pure (ρ a)) := ⟨fun _ _ h => .ok h⟩

theorem follows_fail (hbad : ∀ s b, before s b → bad s b) (cause : ε) :
    Follows before behind bad ρ (fail cause : Action κ ε α) (fail cause) :=
  ⟨fun s b h => .error (hbad s b h)⟩

theorem follows_crash :
    Follows before behind bad ρ (crash : Action κ ε α) crash := ⟨fun _ _ _ => .crash⟩

theorem follows_modify {f g : Binder κ → Binder κ} (h : ∀ s b, before s b → behind (f s) (g b)) :
    Follows before behind bad id (modify f : Action κ ε PUnit) (modify g) :=
  ⟨fun s b hsb => .ok (h s b hsb)⟩

theorem follows_modifyGet {f : Binder κ → α × Binder κ} {g : Binder κ → β × Binder κ}
    (h : ∀ s b, before s b → (g b).1 = ρ (f s).1 ∧ behind (f s).2 (g b).2) :
    Follows before behind bad ρ (modifyGet f : Action κ ε α) (modifyGet g) := by
  refine ⟨fun s b hsb => ?_⟩
  obtain ⟨hanswer, hbehind⟩ := h s b hsb
  change Together _ _ _ (.ok (f s).1 (f s).2) (.ok (g b).1 (g b).2)
  rw [hanswer]
  exact .ok hbehind

/-- Looking for objects on stacks of the same height, where messages do no harm. -/
theorem follows_peek {f : Value → Value} (n : Nat)
    (hstack : ∀ s b, before s b → b.stack = s.stack.map f)
    (hnote : ∀ s b level channel text, before s b →
      before (s.note level channel text) (b.note level channel text)) :
    Follows before before bad (Option.map f) (peek n : Action κ ε (Option Value)) (peek n) := by
  refine ⟨fun s b hsb => ?_⟩
  have hfound : b.stack.peekAt n = (s.stack.peekAt n).map (Option.map f) := by
    rw [hstack s b hsb, Stack.peekAt_map]
  have hdepth : b.stack.length = s.stack.length := by rw [hstack s b hsb, List.length_map]
  rw [peek_run, peek_run, Binder.peek, Binder.peek, hfound, hdepth]
  cases s.stack.peekAt n with
  | error o => exact .crash
  | ok found =>
    cases found with
    | none => exact .ok (hnote s b _ _ _ hsb)
    | some v => exact .ok hsb

/-! ### Composed actions -/

theorem Follows.bind {f : α → Action κ ε γ} {g : β → Action κ ε δ}
    (h : Follows before mid bad ρ act act')
    (hf : ∀ a, Follows mid behind bad σ (f a) (g (ρ a))) :
    Follows before behind bad σ (act >>= f) (act' >>= g) :=
  ⟨fun s b hsb => (h.together s b hsb).bind fun a s' b' hmid => (hf a).together s' b' hmid⟩

/-- A step that looks at both binders, and what is done with them at once. -/
theorem follows_get_bind {f : Binder κ → Action κ ε γ} {g : Binder κ → Action κ ε δ}
    (h : ∀ s b, before s b → Together σ (fun _ => behind) bad (f s s) (g b b)) :
    Follows before behind bad σ (get >>= f) (get >>= g) := ⟨h⟩

/-- A step that looks at both binders and goes on from them. -/
theorem Follows.of_get {f : Binder κ → Action κ ε γ} {g : Binder κ → Action κ ε δ}
    (h : ∀ s b, before s b → Follows before behind bad σ (f s) (g b)) :
    Follows before behind bad σ (get >>= f) (get >>= g) :=
  ⟨fun s b hsb => (h s b hsb).together s b hsb⟩

theorem Follows.discard (h : Follows before behind bad ρ act act') :
    Follows before behind bad id (Functor.discard act) (Functor.discard act') := by
  refine ⟨fun s b hsb => ?_⟩
  have hrun := h.together s b hsb
  revert hrun
  simp only [Functor.discard, Functor.mapConst, Function.comp, EStateM.map]
  generalize act s = r, act' b = r'
  rintro (h | h | _)
  · exact .ok h
  · exact .error h
  · exact .crash

theorem follows_forM {f g : γ → Action κ ε PUnit} {items : List γ}
    (h : ∀ item, Follows before before bad id (f item) (g item)) :
    Follows before before bad id (items.forM f) (items.forM g) := by
  induction items with
  | nil => exact follows_pure _
  | cons item rest ih => exact (h item).bind fun _ => ih

end XmlBinding.Action
