import XmlBinding.Proofs.Progress

/-!
# What rules put up and take down

The account of a binder is what its rules share: the objects, the frames, the named stacks and the
matcher with its decorations. A call of a standard rule changes the top of an account only. How much
it puts there is known from the rule, except that a factory may or may not have made its object.
That is written on the rule's own stack, where the call at the end tag reads it.
-/
namespace XmlBinding

variable {κ ε α : Type}

/-- What rules share. Of a frame only the size counts, and a named stack that was never pushed to is
empty. -/
structure Account (κ : Type) where
  objects : List Value
  frames : List Nat
  named : StackName → List Value
  matcher : Matcher (RuleRef κ)

/-- The account with another object. -/
def Account.lay (a : Account κ) (v : Value) : Account κ := { a with objects := v :: a.objects }

/-- The account with another value on a named stack. -/
def Account.mark (a : Account κ) (name : StackName) (v : Value) : Account κ :=
  { a with named := fun other => if other = name then v :: a.named name else a.named other }

theorem Account.mark_named_self (a : Account κ) (name : StackName) (v : Value) :
    (a.mark name v).named name = v :: a.named name := if_pos rfl

theorem Account.mark_named_of_ne (a : Account κ) {name other : StackName} (h : other ≠ name)
    (v : Value) : (a.mark name v).named other = a.named other := if_neg h

/-- The account without the top value of a named stack. -/
def Account.unmark (a : Account κ) (name : StackName) : Account κ :=
  { a with named := fun other => if other = name then (a.named name).tail else a.named other }

theorem Account.unmark_named_self (a : Account κ) (name : StackName) :
    (a.unmark name).named name = (a.named name).tail := if_pos rfl

theorem Account.unmark_named_of_ne (a : Account κ) {name other : StackName} (h : other ≠ name) :
    (a.unmark name).named other = a.named other := if_neg h

namespace Binder

def account (b : Binder κ) : Account κ :=
  ⟨b.stack, b.params.map List.length, b.named.items, b.matcher⟩

theorem account_eq_bare (b : Binder κ) : b.account = b.bare.account := rfl

theorem account_note (b : Binder κ) (level : Level) (channel : Channel) (text : String) :
    (b.note level channel text).account = b.account := by
  rw [account_eq_bare, bare_note, ← account_eq_bare]

theorem account_push (b : Binder κ) (v : Value) :
    (b.push v).account = b.account.lay v := by
  unfold push
  dsimp only
  split <;> unfold note <;> split <;> rfl

theorem account_pop (b : Binder κ) :
    b.pop.2.account = { b.account with objects := b.account.objects.tail } := by
  obtain ⟨matcher, stack⟩ := b
  cases stack with
  | nil => exact account_note ..
  | cons v rest => rfl

theorem account_popFrame (b : Binder κ) :
    b.popFrame.2.account = { b.account with frames := b.account.frames.tail } := by
  obtain ⟨matcher, stack, params⟩ := b
  cases params with
  | nil => exact account_note ..
  | cons frame rest => rfl

theorem account_pushNamed (b : Binder κ) (name : StackName) (v : Value) :
    (b.pushNamed name v).account = b.account.mark name v := by
  have h : (b.named.push name v).items = fun other =>
      if other = name then v :: b.named.items name else b.named.items other :=
    funext fun other => b.named.items_push name other v
  change Account.mk _ _ (b.named.push name v).items _ = _
  rw [h]
  rfl

/-- A named stack that gives a value loses it, and the other stacks stay. -/
theorem account_popNamed {b b' : Binder κ} {name : StackName} {v : Value}
    (h : b.popNamed name = .ok (v, b')) :
    b.account.named name = v :: b'.account.named name ∧
      b'.account = b.account.unmark name := by
  unfold popNamed at h
  cases hp : b.named.pop? name with
  | none => simp [hp] at h
  | some r =>
    obtain ⟨w, named⟩ := r
    simp only [hp, Except.ok.injEq, Prod.mk.injEq] at h
    obtain ⟨rfl, rfl⟩ := h
    obtain ⟨htop, -⟩ := NamedStacks.items_pop hp name
    refine ⟨htop, ?_⟩
    have hitems : named.items = fun other =>
        if other = name then (b.named.items name).tail else b.named.items other := by
      funext other
      split
      · next ho => rw [ho, htop, List.tail_cons]
      · next ho => exact (NamedStacks.items_pop hp other).2 ho
    change Account.mk _ _ named.items _ = _
    rw [hitems]
    rfl

/-- A parameter goes into a slot of the top frame, which keeps its size. -/
theorem account_setParam {b b' : Binder κ} {index : Nat} {v : Value}
    (h : b.setParam index v = .ok b') : b'.account = b.account := by
  unfold setParam at h
  split at h
  · cases h
  · next frame rest hp =>
    split at h
    · cases h
      simp [account, hp]
    · cases h

end Binder

namespace Action

open Binder

theorem account_of_bare {act : Action κ ε α} (h : act.Keeps bare) : act.Keeps account :=
  h.of_view account account_eq_bare

theorem account_setParam (index : Nat) (v : Value) :
    (setParam index v : Action κ RuleError Unit).Keeps account := by
  refine keeps_get_bind fun b => ?_
  cases h : b.setParam index v with
  | error cause => exact rfl
  | ok b' => exact Binder.account_setParam h

theorem account_fillParameter (index : Nat) (source : ParamSource) (attrs : Attributes) :
    (StandardRule.fillParameter index source attrs : Action κ RuleError Unit).Keeps account := by
  cases source with
  | body => exact keeps_pure _
  | attr name =>
    simp only [StandardRule.fillParameter]
    split
    · exact account_setParam ..
    · exact keeps_pure _
  | stack depth => exact (account_of_bare (bare_peek _)).bind fun _ => account_setParam ..

/-- An action that leaves the account leaves what is known of it. -/
theorem Keeps.meets {view : Binder κ → α} {β : Type} {act : Action κ ε β} (h : act.Keeps view)
    (p : α → Prop) {b : Binder κ} (hb : p (view b)) :
    act.Meets b (fun _ b' => p (view b')) fun _ b' => p (view b') := by
  refine (keepsAt_iff.mp (h.keepsAt b)).mono (fun _ b' hv => ?_) fun _ b' hv => ?_
  · rwa [hv]
  · rwa [hv]

theorem Keeps.meets_of {view : Binder κ → α} {β γ : Type} {act : Action κ ε β}
    {f : β → Action κ ε γ} {p : α → Prop} {b : Binder κ}
    (h : act.Meets b (fun _ b' => p (view b')) fun _ _ => True) (hf : ∀ a, (f a).Keeps view) :
    (act >>= f).Meets b (fun _ b' => p (view b')) fun _ _ => True := by
  rw [meets_bind]
  refine h.mono (fun a m hm => ?_) fun _ _ => id
  exact ((hf a).meets p hm).mono (fun _ _ => id) fun _ _ _ => trivial

theorem meets_popNamed (name : StackName) (b : Binder κ) :
    (popNamed name : Action κ RuleError Value).Meets b
      (fun v b' => b.account.named name = v :: b'.account.named name ∧
        b'.account = b.account.unmark name) fun _ _ => True := by
  unfold popNamed
  simp only [meets_bind, meets_get, meets_lift]
  refine ⟨fun r hr => ?_, fun _ _ => trivial⟩
  obtain ⟨v, b'⟩ := r
  exact Binder.account_popNamed hr

end Action

/-! ### What single rules put up -/

namespace StandardRule

/-- Whether the rule has an object of its own on the stack between its start and its end, given
whether a factory made one. A captured node is left out: it comes on the stack at the end tag. -/
def ownsObject : StandardRule → Bool → Bool
  | .objectCreate .., _ => true
  | .factoryCreate _ ignoreFailure _, made => made || !ignoreFailure
  | _, _ => false

def capturesNode : StandardRule → Bool
  | .nodeCreate _ => true
  | _ => false

def opensFrame : StandardRule → Bool
  | .callMethod _ (.frame _) _ _ _ => true
  | _ => false

def decorates : StandardRule → Bool
  | .setNested _ => true
  | _ => false

/-- The stack on which the rule writes at the start tag whether an object was made. -/
def flagStack? : StandardRule → Option StackName
  | .factoryCreate _ true number => some (createdFlags number)
  | _ => none

/-- The stack on which the rule keeps the text of the element for its end. -/
def textStack? : StandardRule → Option StackName
  | .textProperty _ number => some (propertyTexts number)
  | .callMethod _ .bodyText _ _ number => some (callTexts number)
  | .callParam _ .body number => some (parameterTexts number)
  | _ => none

/-- Flags and texts are kept on different stacks. -/
theorem textStack?_ne_flagStack? {rule other : StandardRule} {name : StackName}
    (h : rule.flagStack? = some name) : other.textStack? ≠ some name := by
  obtain ⟨number, rfl⟩ : ∃ number, name = createdFlags number := by
    cases rule with
    | factoryCreate source ignoreFailure number =>
      cases ignoreFailure
      · cases h
      · exact ⟨number, (Option.some.inj h).symm⟩
    | _ => cases h
  cases other with
  | textProperty property own => simp [textStack?, propertyTexts, createdFlags]
  | callMethod method arguments types offset own =>
    cases arguments <;> simp [textStack?, callTexts, createdFlags]
  | callParam index source own => cases source <;> simp [textStack?, parameterTexts, createdFlags]
  | _ => exact nofun

end StandardRule

/-! ### What stands above an account -/

/-- One stack is another with so many items on top. -/
def Above {α : Type} (n : Nat) (high low : List α) : Prop :=
  ∃ top, high = top ++ low ∧ top.length = n

namespace Above

variable {α : Type} {n : Nat} {high low : List α}

theorem refl (s : List α) : Above 0 s s := ⟨[], rfl, rfl⟩

theorem eq (h : Above 0 high low) : high = low := by
  obtain ⟨top, rfl, hl⟩ := h
  rw [List.eq_nil_of_length_eq_zero hl, List.nil_append]

theorem push (h : Above n high low) (a : α) : Above (n + 1) (a :: high) low := by
  obtain ⟨top, rfl, hl⟩ := h
  exact ⟨a :: top, rfl, by rw [List.length_cons, hl]⟩

theorem pop (h : Above (n + 1) high low) : Above n high.tail low := by
  obtain ⟨top, rfl, hl⟩ := h
  cases top with
  | nil => cases hl
  | cons a rest => exact ⟨rest, rfl, Nat.succ.inj hl⟩

end Above

/-- A matcher with so many decorations of the standard rules around another one. -/
inductive Decorated : Nat → Matcher (RuleRef κ) → Matcher (RuleRef κ) → Prop
  | zero (m : Matcher (RuleRef κ)) : Decorated 0 m m
  | succ {n : Nat} {high low : Matcher (RuleRef κ)} (h : Decorated n high low)
      (place : Option (List Char)) (id : Nat) (config : NestedConfig) :
      Decorated (n + 1) (.decorated high place ⟨id, .standard (.nestedChild config)⟩) low

/-- The flags of the open rules on one stack. -/
def flagsOn (opened : List (StandardRule × Bool)) (name : StackName) : List Value :=
  (opened.filter (·.1.flagStack? = some name)).map (.bool ·.2)

/-- What rules have put on one account to make another: the rules that are open, the latest first,
each with whether it made an object; so many captured nodes; the rules whose decoration is there;
and those whose text is kept. -/
structure Stands (opened : List (StandardRule × Bool)) (nodes : Nat)
    (decorating texted : List StandardRule) (high low : Account κ) : Prop where
  objects : Above (opened.countP (fun o => o.1.ownsObject o.2) + nodes) high.objects low.objects
  frames : Above (opened.countP (·.1.opensFrame)) high.frames low.frames
  named : ∀ name, Above (texted.countP (·.textStack? = some name)) (high.named name)
    (flagsOn opened name ++ low.named name)
  matcher : Decorated (decorating.countP (·.decorates)) high.matcher low.matcher

namespace Stands

variable {opened : List (StandardRule × Bool)} {nodes : Nat} {decorating texted : List StandardRule}
  {high low : Account κ} {rule : StandardRule} {made : Bool}

theorem refl (a : Account κ) : Stands [] 0 [] [] a a :=
  ⟨.refl _, .refl _, fun _ => .refl _, .zero _⟩

/-- With nothing left above it an account is what it was. -/
theorem eq (h : Stands [] 0 [] [] high low) : high = low := by
  obtain ⟨objects, frames, named, matcher⟩ := low
  obtain ⟨objects', frames', named', matcher'⟩ := high
  have ho : objects' = objects := h.objects.eq
  have hf : frames' = frames := h.frames.eq
  have hn : named' = named := funext fun name => (h.named name).eq
  have hm : matcher' = matcher := by
    cases h.matcher
    rfl
  rw [ho, hf, hn, hm]

end Stands

end XmlBinding
