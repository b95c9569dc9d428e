import XmlBinding.Binder

/-!
# Outcomes of actions

Every action ends in an answer or ends early, and leaves a binder in both cases. `Meets` states what
holds at either end; the lemmas below take an action apart along its steps. `Keeps` is the case of a
part of the binder that an action leaves as it was, however it ends.
-/
namespace XmlBinding.Action

variable {κ ε ε' α β γ : Type}

/-- The binder that an action leaves, however it ends. -/
def after (act : Action κ ε α) (b : Binder κ) : Binder κ :=
  match act b with
  | .ok _ b' => b'
  | .error _ b' => b'

/-- An action that gets through ends in `good`, one that ends early in `bad`. -/
def Meets (act : Action κ ε α) (b : Binder κ) (good : α → Binder κ → Prop)
    (bad : Halt ε → Binder κ → Prop) : Prop :=
  match act b with
  | .ok a b' => good a b'
  | .error halt b' => bad halt b'

variable {act : Action κ ε α} {b b' : Binder κ} {good good' : α → Binder κ → Prop}
  {bad bad' : Halt ε → Binder κ → Prop}

theorem meets_of_ok {a : α} (h : act b = .ok a b') : act.Meets b good bad ↔ good a b' := by
  rw [Meets, h]

theorem meets_of_error {halt : Halt ε} (h : act b = .error halt b') :
    act.Meets b good bad ↔ bad halt b' := by
  rw [Meets, h]

theorem after_of_ok {a : α} (h : act b = .ok a b') : act.after b = b' := by rw [after, h]

theorem after_of_error {halt : Halt ε} (h : act b = .error halt b') : act.after b = b' := by
  rw [after, h]

/-- Where an action ends depends on how it runs only. -/
theorem after_congr {act' : Action κ ε α} (h : act b = act' b') : act.after b = act'.after b' := by
  rw [after, after, h]

/-- What holds however an action ends. -/
theorem meets_after {p : Binder κ → Prop} :
    act.Meets b (fun _ => p) (fun _ => p) ↔ p (act.after b) := by
  unfold Meets after
  cases act b <;> rfl

/-- What an action meets depends on how it runs only. -/
theorem meets_congr {act' : Action κ ε α} (h : act b = act' b') :
    act.Meets b good bad ↔ act'.Meets b' good bad := by
  rw [Meets, Meets, h]

/-- What an action meets may be weakened at both ends, in the light of the run itself. -/
theorem Meets.mono_run (h : act.Meets b good bad)
    (hg : ∀ a b', act b = .ok a b' → good a b' → good' a b')
    (hb : ∀ halt b', bad halt b' → bad' halt b') : act.Meets b good' bad' := by
  cases hr : act b with
  | ok a b' => exact (meets_of_ok hr).mpr (hg _ _ hr ((meets_of_ok hr).mp h))
  | error halt b' => exact (meets_of_error hr).mpr (hb _ _ ((meets_of_error hr).mp h))

/-- What an action meets may be weakened at both ends. -/
theorem Meets.mono (h : act.Meets b good bad) (hg : ∀ a b', good a b' → good' a b')
    (hb : ∀ halt b', bad halt b' → bad' halt b') : act.Meets b good' bad' :=
  h.mono_run (fun a b' _ => hg a b') hb

/-- What an action meets, said of the two ways in which it may end. -/
theorem meets_iff : act.Meets b good bad ↔
    (∀ a b', act b = .ok a b' → good a b') ∧ ∀ halt b', act b = .error halt b' → bad halt b' := by
  unfold Meets
  cases act b <;> simp

/-- Two things that an action meets are met by the same run. -/
theorem Meets.and {also : α → Binder κ → Prop} {alsoBad : Halt ε → Binder κ → Prop}
    (h : act.Meets b good bad) (h' : act.Meets b also alsoBad) :
    act.Meets b (fun a b' => good a b' ∧ also a b')
      fun halt b' => bad halt b' ∧ alsoBad halt b' := by
  unfold Meets at *
  cases hr : act b <;> rw [hr] at h h' <;> exact ⟨h, h'⟩

/-! ### Single steps -/

@[simp] theorem meets_pure (a : α) : (pure a : Action κ ε α).Meets b good bad ↔ good a b := Iff.rfl

@[simp] theorem meets_fail (cause : ε) :
    (fail cause : Action κ ε α).Meets b good bad ↔ bad (.error cause) b := Iff.rfl

@[simp] theorem meets_crash : (crash : Action κ ε α).Meets b good bad ↔ bad .crash b := Iff.rfl

@[simp] theorem meets_get {good : Binder κ → Binder κ → Prop} :
    (get : Action κ ε (Binder κ)).Meets b good bad ↔ good b b := Iff.rfl

@[simp] theorem meets_set (s : Binder κ) {good : PUnit → Binder κ → Prop} :
    (set s : Action κ ε PUnit).Meets b good bad ↔ good ⟨⟩ s := Iff.rfl

@[simp] theorem meets_modify (f : Binder κ → Binder κ) {good : PUnit → Binder κ → Prop} :
    (modify f : Action κ ε PUnit).Meets b good bad ↔ good ⟨⟩ (f b) := Iff.rfl

@[simp] theorem meets_modifyGet (f : Binder κ → α × Binder κ) :
    (modifyGet f : Action κ ε α).Meets b good bad ↔ good (f b).1 (f b).2 := Iff.rfl

@[simp] theorem meets_note (level : Level) (channel : Channel) (text : String)
    {good : Unit → Binder κ → Prop} :
    (note level channel text : Action κ ε Unit).Meets b good bad ↔
      good () (b.note level channel text) := Iff.rfl

@[simp] theorem meets_push (v : Value) {good : Unit → Binder κ → Prop} :
    (push v : Action κ ε Unit).Meets b good bad ↔ good () (b.push v) := Iff.rfl

@[simp] theorem meets_lift (r : Except ε α) :
    (lift r : Action κ ε α).Meets b good bad ↔
      (∀ a, r = .ok a → good a b) ∧ ∀ cause, r = .error cause → bad (.error cause) b := by
  cases r <;> simp [lift]

/-! ### Composed actions -/

/-- A sequence of two actions, taken apart at the point between them. -/
@[simp] theorem meets_bind {f : α → Action κ ε β} {good : β → Binder κ → Prop} :
    (act >>= f).Meets b good bad ↔ act.Meets b (fun a b' => (f a).Meets b' good bad) bad := by
  simp only [Meets, bind, EStateM.bind]
  cases act b <;> rfl

@[simp] theorem meets_map {f : α → β} {good : β → Binder κ → Prop} :
    (f <$> act).Meets b good bad ↔ act.Meets b (fun a => good (f a)) bad := by
  simp only [Meets, Functor.map, EStateM.map]
  cases act b <;> rfl

@[simp] theorem meets_discard {good : Unit → Binder κ → Prop} :
    (discard act).Meets b good bad ↔ act.Meets b (fun _ => good ()) bad := meets_map

/-- Errors become answers; a crash stays one. -/
@[simp] theorem meets_attempt {good : Except ε α → Binder κ → Prop}
    {bad : Halt ε' → Binder κ → Prop} :
    (act.attempt : Action κ ε' (Except ε α)).Meets b good bad ↔
      act.Meets b (fun a => good (.ok a)) fun halt b' =>
        match halt with
        | .error cause => good (.error cause) b'
        | .crash => bad .crash b' := by
  simp only [Meets, attempt]
  rcases act b with ⟨a, b'⟩ | ⟨_ | _, b'⟩ <;> rfl

/-! ### Runs -/

theorem get_bind_run (f : Binder κ → Action κ ε β) : (get >>= f) b = f b b := rfl

theorem set_bind_run (s : Binder κ) (f : PUnit → Action κ ε β) : (set s >>= f) b = f ⟨⟩ s := rfl

theorem modify_bind_run (g : Binder κ → Binder κ) (f : PUnit → Action κ ε β) :
    (modify g >>= f) b = f ⟨⟩ (g b) := rfl

theorem bind_eq_ok {f : α → Action κ ε β} {c : β} :
    (act >>= f) b = .ok c b' ↔ ∃ a m, act b = .ok a m ∧ f a m = .ok c b' := by
  simp only [bind, EStateM.bind]
  cases hr : act b with
  | ok a m =>
    refine ⟨fun h => ⟨a, m, rfl, h⟩, ?_⟩
    rintro ⟨_, _, ⟨⟩, h⟩
    exact h
  | error halt m => simp

/-- Behind an action that gets through, the rest runs from the binder that it left. -/
theorem bind_run_of_ok {a : α} (h : act b = .ok a b') (f : α → Action κ ε β) :
    (act >>= f) b = f a b' := by
  simp only [bind, EStateM.bind, h]

/-- Behind two runs that end in the same way, the rest runs in the same way. -/
theorem bind_run_congr {act' : Action κ ε α} {s : Binder κ} (h : act b = act' s)
    (f : α → Action κ ε β) : (act >>= f) b = (act' >>= f) s := by
  simp only [bind, EStateM.bind, h]

/-- Behind an action that ends early nothing runs. -/
theorem bind_run_of_error {halt : Halt ε} (h : act b = .error halt b') (f : α → Action κ ε β) :
    (act >>= f) b = .error halt b' := by
  simp only [bind, EStateM.bind, h]

theorem after_bind_of_ok {a : α} (h : act b = .ok a b') (f : α → Action κ ε β) :
    (act >>= f).after b = (f a).after b' := after_congr (bind_run_of_ok h f)

theorem after_bind_of_error {halt : Halt ε} (h : act b = .error halt b') (f : α → Action κ ε β) :
    (act >>= f).after b = b' := after_of_error (bind_run_of_error h f)

theorem after_attempt : (act.attempt : Action κ ε' (Except ε α)).after b = act.after b := by
  unfold attempt after
  rcases hr : act b with ⟨a, m⟩ | ⟨_ | _, m⟩ <;> simp only [hr]

theorem attempt_of_ok {a : α} (h : act b = .ok a b') :
    (act.attempt : Action κ ε' (Except ε α)) b = .ok (.ok a) b' := by
  unfold attempt
  rw [h]

theorem attempt_of_error {cause : ε} (h : act b = .error (.error cause) b') :
    (act.attempt : Action κ ε' (Except ε α)) b = .ok (.error cause) b' := by
  unfold attempt
  rw [h]

theorem attempt_of_crash (h : act b = .error .crash b') :
    (act.attempt : Action κ ε' (Except ε α)) b = .error .crash b' := by
  unfold attempt
  rw [h]

/-- An attempt gets through with the answer of the action or with its error. -/
theorem attempt_eq_ok {answer : Except ε α}
    (h : (act.attempt : Action κ ε' (Except ε α)) b = .ok answer b') :
    (∃ a, answer = .ok a ∧ act b = .ok a b') ∨
      ∃ cause, answer = .error cause ∧ act b = .error (.error cause) b' := by
  unfold attempt at h
  rcases hr : act b with ⟨a, m⟩ | ⟨cause | _, m⟩ <;> rw [hr] at h <;> cases h
  · exact .inl ⟨a, rfl, rfl⟩
  · exact .inr ⟨cause, rfl, rfl⟩

theorem discard_eq_ok {u : PUnit} (h : discard act b = .ok u b') : ∃ a, act b = .ok a b' := by
  change ((fun _ => PUnit.unit) <$> act) b = _ at h
  simp only [Functor.map, EStateM.map] at h
  cases hr : act b with
  | ok a m =>
    rw [hr] at h
    cases h
    exact ⟨a, rfl⟩
  | error halt m =>
    rw [hr] at h
    cases h

/-- The answer of an action that gets through. -/
def answer? (act : Action κ ε α) (b : Binder κ) : Option α :=
  match act b with
  | .ok a _ => some a
  | .error _ _ => none

theorem eq_ok_of_answer? {a : α} (h : act.answer? b = some a) : act b = .ok a (act.after b) := by
  unfold answer? at h
  cases hr : act b with
  | ok a' b' =>
    rw [hr] at h
    cases h
    rw [after_of_ok hr]
  | error halt b' =>
    rw [hr] at h
    cases h

/-- The error of an action that fails. -/
def error? (act : Action κ ε α) (b : Binder κ) : Option ε :=
  match act b with
  | .error (.error cause) _ => some cause
  | _ => none

theorem eq_error_of_error? {cause : ε} (h : act.error? b = some cause) :
    act b = .error (.error cause) (act.after b) := by
  unfold error? at h
  rcases hr : act b with ⟨a, b'⟩ | ⟨cause' | _, b'⟩ <;> rw [hr] at h <;> cases h
  rw [after_of_error hr]

/-- A loop over two lists is a loop over the one and then over the other. -/
theorem forM_append {f : β → Action κ ε PUnit} (front back : List β) :
    (front ++ back).forM f = (front.forM f >>= fun _ => back.forM f) := by
  induction front with
  | nil => rfl
  | cons item rest ih =>
    change (f item >>= fun _ => (rest ++ back).forM f) =
      ((f item >>= fun _ => rest.forM f) >>= fun _ => back.forM f)
    rw [ih, bind_assoc]

/-! ### Looking into the stack of objects -/

/-- Looking for an object ends with what is found, and with a message if that is nothing, or with a
crash if the levels cannot be counted. -/
theorem peek_run (n : Nat) (b : Binder κ) : (peek n : Action κ ε (Option Value)) b =
    match b.peek n with
    | .ok (found, s) => .ok found s
    | .error _ => .error .crash b := by
  unfold peek
  rw [get_bind_run]
  cases b.peek n <;> rfl

theorem peek_of_below? {n : Nat} {v : Value} (h : b.stack.below? n = some v) :
    (peek n : Action κ ε (Option Value)) b = .ok (some v) b := by
  rw [peek_run, Binder.peek, Stack.peekAt_of_below? h]
  rfl

theorem peek_eq_ok {n : Nat} {found : Option Value}
    (h : (peek n : Action κ ε (Option Value)) b = .ok found b') :
    found = b.stack.below? n ∧ (found.isSome = true → b' = b) := by
  rw [peek_run, Binder.peek] at h
  cases hfound : b.stack.peekAt n with
  | error o =>
    rw [hfound] at h
    cases h
  | ok item =>
    rw [hfound] at h
    cases h
    exact ⟨Stack.peekAt_eq_ok hfound, fun hsome => if_pos hsome⟩

/-! ### What an action leaves as it was -/

/-- However the action ends, `view` of the binder stays. -/
def KeepsAt (view : Binder κ → γ) (act : Action κ ε α) (b : Binder κ) : Prop :=
  view (act.after b) = view b

/-- From every binder, however the action ends, `view` of the binder stays. -/
structure Keeps (view : Binder κ → γ) (act : Action κ ε α) : Prop where
  keepsAt : ∀ b, act.KeepsAt view b

variable {view : Binder κ → γ}

theorem keepsAt_iff : act.KeepsAt view b ↔
    act.Meets b (fun _ b' => view b' = view b) fun _ b' => view b' = view b :=
  (meets_after (p := fun b' => view b' = view b)).symm

theorem Keeps.of_ok (h : act.Keeps view) {a : α} (hr : act b = .ok a b') : view b' = view b := by
  have hb := h.keepsAt b
  rwa [KeepsAt, after_of_ok hr] at hb

/-- What a smaller view shows is kept with the larger one. -/
theorem Keeps.of_view {δ : Type} {wide : Binder κ → δ} (h : act.Keeps wide) (f : δ → γ)
    (hf : ∀ b, view b = f (wide b)) : act.Keeps view := by
  refine ⟨fun b => ?_⟩
  have hb := h.keepsAt b
  unfold KeepsAt at hb ⊢
  rw [hf, hf, hb]

theorem keeps_pure (a : α) : (pure a : Action κ ε α).Keeps view := ⟨fun _ => rfl⟩

theorem keeps_fail (cause : ε) : (fail cause : Action κ ε α).Keeps view := ⟨fun _ => rfl⟩

theorem keeps_crash : (crash : Action κ ε α).Keeps view := ⟨fun _ => rfl⟩

theorem keeps_get : (get : Action κ ε (Binder κ)).Keeps view := ⟨fun _ => rfl⟩

theorem keeps_lift (r : Except ε α) : (lift r : Action κ ε α).Keeps view := by
  cases r
  · exact keeps_fail _
  · exact keeps_pure _

theorem keeps_modify {f : Binder κ → Binder κ} (h : ∀ b, view (f b) = view b) :
    (modify f : Action κ ε PUnit).Keeps view := ⟨h⟩

theorem keeps_modifyGet {f : Binder κ → α × Binder κ} (h : ∀ b, view (f b).2 = view b) :
    (modifyGet f : Action κ ε α).Keeps view := ⟨h⟩

/-- Looking for an object leaves a message at most. -/
theorem keeps_peek (n : Nat)
    (h : ∀ (b : Binder κ) level channel text, view (b.note level channel text) = view b) :
    (peek n : Action κ ε (Option Value)).Keeps view := by
  refine ⟨fun b => ?_⟩
  unfold KeepsAt after
  rw [peek_run, Binder.peek]
  cases b.stack.peekAt n with
  | error o => rfl
  | ok found =>
    cases found with
    | none => exact h b ..
    | some v => rfl

theorem KeepsAt.bind {f : α → Action κ ε β} (h : act.KeepsAt view b)
    (hf : ∀ a b', act b = .ok a b' → (f a).KeepsAt view b') : (act >>= f).KeepsAt view b := by
  unfold KeepsAt at *
  cases hr : act b with
  | ok a m =>
    rw [after_of_ok hr] at h
    rw [after_bind_of_ok hr]
    exact (hf a m hr).trans h
  | error halt m =>
    rw [after_of_error hr] at h
    rw [after_bind_of_error hr]
    exact h

theorem Keeps.bind {f : α → Action κ ε β} (h : act.Keeps view) (hf : ∀ a, (f a).Keeps view) :
    (act >>= f).Keeps view :=
  ⟨fun b => (h.keepsAt b).bind fun a b' _ => (hf a).keepsAt b'⟩

/-- A step that only looks at the binder. -/
theorem keeps_get_bind {f : Binder κ → Action κ ε β} (h : ∀ b, (f b).KeepsAt view b) :
    (get >>= f).Keeps view := by
  refine ⟨fun b => KeepsAt.bind rfl fun _ _ hr => ?_⟩
  cases hr
  exact h b

theorem keepsAt_set_bind {s : Binder κ} {f : PUnit → Action κ ε β} (h : view s = view b)
    (hf : (f ⟨⟩).Keeps view) : (set s >>= f).KeepsAt view b :=
  KeepsAt.bind h fun _ b' _ => hf.keepsAt b'

theorem Keeps.map {f : α → β} (h : act.Keeps view) : (f <$> act).Keeps view := by
  refine ⟨fun b => ?_⟩
  have hb := h.keepsAt b
  unfold KeepsAt after at *
  simp only [Functor.map, EStateM.map]
  cases hr : act b <;> rw [hr] at hb <;> exact hb

theorem Keeps.discard (h : act.Keeps view) : (Functor.discard act).Keeps view := h.map

theorem Keeps.attempt (h : act.Keeps view) :
    (act.attempt : Action κ ε' (Except ε α)).Keeps view := by
  refine ⟨fun b => ?_⟩
  unfold KeepsAt
  rw [after_attempt]
  exact h.keepsAt b

theorem Keeps.forM {f : β → Action κ ε PUnit} (h : ∀ item, (f item).Keeps view) (items : List β) :
    (items.forM f).Keeps view := by
  induction items with
  | nil => exact keeps_pure _
  | cons item rest ih => exact (h item).bind fun _ => ih

end XmlBinding.Action
