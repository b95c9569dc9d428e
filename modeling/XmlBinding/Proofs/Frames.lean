import XmlBinding.Proofs.Balance
import XmlBinding.Proofs.Scene
import XmlBinding.Proofs.Trace

/-!
# Frames

A deferred call puts a frame on its stack and takes one at its end; parameters go into a slot of the
frame on top. Between its start and its end everything that is put on a frame is taken again, so the
end finds the frame of its own start, and the slots in it were filled while no other frame was
above. No other rule touches the frames, and the dispatcher does not either.
-/
namespace XmlBinding

variable {κ : Type}

/-! ### What one call does -/

/-- What the call of a rule does to the stack of frames. -/
inductive FrameEffect
  | opens (size : Nat)
  | takes
  | stores (index : Nat) (v : Value)
  | nothing

def FrameEffect.Acts : FrameEffect → Stack (List Value) → Stack (List Value) → Prop
  | opens size, old, new => new = List.replicate size .null :: old
  | takes, old, new => ∃ frame, old = frame :: new
  | stores index v, old, new => ∃ frame low, old = frame :: low ∧ index < frame.length ∧
      new = frame.set index v :: low
  | nothing, old, new => new = old

/-- What the call of a standard rule does to the stack of frames, given the binder that it finds.
Parameters come from an attribute, from the stack of objects, from the text kept for the rule, from
the rule itself or from the path. -/
def StandardRule.frameEffect (rule : StandardRule) (cb : Callback) (b : Binder κ) : FrameEffect :=
  match rule, cb with
  | .callMethod _ (.frame size) _ _ _, .start .. => .opens size
  | .callMethod _ (.frame _) _ _ _, .close .. => .takes
  | .callParam index (.attr name) _, .start _ _ attrs =>
    match attrs.value? name with
    | some v => .stores index (.text v)
    | none => .nothing
  | .callParam index (.stack depth) _, .start .. =>
    .stores index ((b.stack.below? depth).getD .null)
  | .callParam index .body number, .close .. =>
    .stores index ((b.named.items (parameterTexts number)).headD .null)
  | .objectParam index v attr, .start _ _ attrs =>
    if attr.all fun wanted => (attrs.value? wanted).isSome then .stores index v else .nothing
  | .pathParam index, .start .. => .stores index (.text b.path)
  | _, _ => .nothing

namespace Action

variable {ε α : Type} {b b' : Binder κ}

theorem params_of_still {act : Action κ ε α} (h : act.Keeps Binder.still) :
    act.Keeps Binder.params :=
  h.of_view Binder.params fun _ => rfl

theorem setParam_eq_ok {index : Nat} {v : Value} (h : setParam index v b = .ok () b') :
    ∃ frame low, b.params = frame :: low ∧ index < frame.length ∧
      b' = { b with params := frame.set index v :: low } := by
  unfold setParam at h
  rw [get_bind_run] at h
  unfold Binder.setParam at h
  cases hp : b.params with
  | nil =>
    rw [hp] at h
    cases h
  | cons frame low =>
    rw [hp] at h
    by_cases hindex : index < frame.length
    · simp only [if_pos hindex] at h
      cases h
      exact ⟨frame, low, rfl, hindex, rfl⟩
    · simp only [if_neg hindex] at h
      cases h

theorem acts_setParam {index : Nat} {v : Value} (h : setParam index v b = .ok () b') :
    (FrameEffect.stores index v).Acts b.params b'.params := by
  obtain ⟨frame, low, hp, hindex, rfl⟩ := setParam_eq_ok h
  exact ⟨frame, low, hp, hindex, rfl⟩

theorem popNamed_eq_ok {name : StackName} {v : Value} (h : popNamed name b = .ok v b') :
    ∃ named, b.named.pop? name = some (v, named) ∧ b' = { b with named } := by
  unfold popNamed at h
  rw [get_bind_run] at h
  unfold Binder.popNamed at h
  cases hp : b.named.pop? name with
  | none =>
    rw [hp] at h
    cases h
  | some found =>
    rw [hp] at h
    cases h
    exact ⟨found.2, rfl, rfl⟩

theorem popFrame_eq_ok {found : Option (List Value)}
    (h : (popFrame : Action κ ε _) b = .ok found b') :
    match b.params with
    | [] => found = none
    | frame :: low => found = some frame ∧ b' = { b with params := low } := by
  have hpop : (EStateM.Result.ok b.popFrame.1 b.popFrame.2 : EStateM.Result (Halt ε) _ _) =
    .ok found b' := h
  unfold Binder.popFrame at hpop
  cases hp : b.params with
  | nil =>
    rw [hp] at hpop
    cases hpop
    rfl
  | cons frame low =>
    rw [hp] at hpop
    cases hpop
    exact ⟨rfl, rfl⟩

/-- An action that leaves the frames alone has no effect on them. -/
theorem Keeps.acts {act : Action κ ε α} (h : act.Keeps Binder.params) {a : α}
    (hr : act b = .ok a b') : FrameEffect.nothing.Acts b.params b'.params :=
  h.of_ok hr

end Action

namespace StandardRule

open XmlBinding.Action

variable {b b' : Binder κ}

theorem acts_fillParameter {index : Nat} {source : ParamSource} {number : Nat} (uri name : String)
    {attrs : Attributes} (h : fillParameter index source attrs b = .ok () b') :
    ((callParam index source number).frameEffect (.start uri name attrs) b).Acts b.params
      b'.params := by
  cases source with
  | body =>
    cases h
    exact rfl
  | attr wanted =>
    unfold fillParameter at h
    unfold frameEffect
    dsimp only at h ⊢
    cases hv : attrs.value? wanted with
    | none =>
      rw [hv] at h
      cases h
      exact rfl
    | some v =>
      rw [hv] at h
      exact acts_setParam h
  | stack depth =>
    obtain ⟨found, m, hpeek, hset⟩ := bind_eq_ok.mp h
    have hm : m.params = b.params := (params_of_still (still_of_bare (bare_peek depth))).of_ok hpeek
    obtain ⟨rfl, -⟩ := peek_eq_ok hpeek
    have hacts := acts_setParam hset
    rwa [hm] at hacts

end StandardRule

/-! ### A deferred call -/

/-- The object `offset` levels below the top, or for a negative offset that many levels above the
bottom of the stack. -/
def Binder.callTarget? (b : Binder κ) (offset : Int) : Option Value :=
  if 0 ≤ offset then b.stack[offset.toNat]? else b.stack.reverse[offset.natAbs - 1]?

/-- A method is called once, on the target that its offset names. In front of the call only
messages were left. -/
def Invokes (method : String) (args : List Value) (types : List ScalarType) (offset : Int)
    (b b' : Binder κ) : Prop :=
  ∃ target s v, b.callTarget? offset = some target ∧ target.isNull = false ∧
    s = { b with journal := s.journal } ∧ Action.invoke target method args types s = .ok v b'

namespace StandardRule

open XmlBinding.Action

variable {b b' m : Binder κ} {method : String} {types : List ScalarType} {offset : Int}
  {texts : StackName}

/-- A step that goes on with a value found on the stack, unless there is none or it is null. -/
theorem peek_bind_eq_ok {index : Nat} {target : Value} {k : Option Value → Action κ RuleError Value}
    (hsome : ∀ v, k (some v) = if v.isNull = true then k none else pure v)
    (hnone : ∀ s s', k none s ≠ .ok target s') (h : (peek index >>= k) b = .ok target b') :
    b.stack[index]? = some target ∧ target.isNull = false ∧ b' = b := by
  obtain ⟨found, m, hpeek, hanswer⟩ := bind_eq_ok.mp h
  obtain ⟨hfound, hsame⟩ := peek_eq_ok hpeek
  cases found with
  | none => exact absurd hanswer (hnone _ _)
  | some v =>
    rw [hsome] at hanswer
    by_cases hnull : v.isNull = true
    · rw [if_pos hnull] at hanswer
      exact absurd hanswer (hnone _ _)
    · rw [if_neg hnull] at hanswer
      cases hanswer
      exact ⟨hfound.symm, Bool.eq_false_iff.mpr hnull, hsame rfl⟩

theorem callTarget_eq_ok {target : Value} (h : callTarget offset b = .ok target b') :
    b.callTarget? offset = some target ∧ target.isNull = false ∧ b' = b := by
  unfold callTarget callIndex? at h
  rw [get_bind_run] at h
  unfold Binder.callTarget?
  dsimp only at h
  by_cases hoffset : 0 ≤ offset
  · simp only [if_pos hoffset] at h ⊢
    exact peek_bind_eq_ok
      (fun v => by cases hv : v.isNull <;> simp only [Option.filter_some, hv] <;> rfl)
      (fun _ _ => by exact nofun) h
  · by_cases hdepth : offset.natAbs ≤ b.stack.length
    · simp only [if_neg hoffset, if_pos hdepth] at h ⊢
      obtain ⟨hfound, hrest⟩ := peek_bind_eq_ok
        (fun v => by cases hv : v.isNull <;> simp only [Option.filter_some, hv] <;> rfl)
        (fun _ _ => by exact nofun) h
      refine ⟨?_, hrest⟩
      rw [List.getElem?_reverse (by omega), ← hfound]
      congr 1
      omega
    · simp only [if_neg hoffset, if_neg hdepth] at h
      cases h

/-- The frame of a deferred call is taken, and the call is left out if its only slot is empty. -/
theorem collectFrame_eq_ok {size : Nat} {args : Option (List Value)}
    (h : collectArguments method (.frame size) texts b = .ok args b') :
    ∃ frame low, b.params = frame :: low ∧
      b' = { b with params := low, journal := b'.journal } ∧
      args = if size = 1 ∧ (frame.headD .null).isNull = true then none else some frame := by
  obtain ⟨found, m, hpop, h⟩ := bind_eq_ok.mp h
  have hframe := popFrame_eq_ok hpop
  cases hp : b.params with
  | nil =>
    rw [hp] at hframe
    subst hframe
    cases h
  | cons frame low =>
    rw [hp] at hframe
    obtain ⟨rfl, rfl⟩ := hframe
    refine ⟨frame, low, rfl, ?_⟩
    dsimp only at h
    split at h
    · next hskip =>
      obtain ⟨⟨⟩, s, hnote, hreturn⟩ := bind_eq_ok.mp h
      cases hreturn
      cases hnote
      exact ⟨Binder.note_eq .., (if_pos hskip).symm⟩
    · next hcall =>
      cases h
      exact ⟨rfl, (if_neg hcall).symm⟩

theorem callDeferred_eq_ok {arguments : Arguments}
    (h : callDeferred method arguments types offset texts b = .ok () b') :
    ∃ args m, collectArguments method arguments texts b = .ok args m ∧
      match args with
      | none => b' = m
      | some args => Invokes method args types offset m b' := by
  obtain ⟨args, m, hcollect, h⟩ := bind_eq_ok.mp h
  refine ⟨args, m, hcollect, ?_⟩
  cases args with
  | none =>
    cases h
    rfl
  | some args =>
    dsimp only at h ⊢
    obtain ⟨target, m', htarget, hcall⟩ := bind_eq_ok.mp h
    obtain ⟨hfound, hnull, rfl⟩ := callTarget_eq_ok htarget
    rw [get_bind_run] at hcall
    obtain ⟨⟨⟩, s, hnote, hinvoke⟩ := bind_eq_ok.mp hcall
    cases hnote
    obtain ⟨v, hv⟩ := discard_eq_ok hinvoke
    exact ⟨target, _, v, hfound, hnull, Binder.note_eq .., hv⟩

theorem acts_callDeferred {size : Nat}
    (h : callDeferred method (.frame size) types offset texts b = .ok () b') :
    FrameEffect.takes.Acts b.params b'.params := by
  obtain ⟨args, m, hcollect, hcall⟩ := callDeferred_eq_ok h
  obtain ⟨frame, low, hp, hm, -⟩ := collectFrame_eq_ok hcollect
  have hlow : m.params = low := by rw [hm]
  refine ⟨frame, ?_⟩
  cases args with
  | none =>
    obtain rfl : b' = m := hcall
    rw [hp, hlow]
  | some args =>
    obtain ⟨target, s, v, -, -, hs, hinvoke⟩ := hcall
    have hparams : b'.params = s.params :=
      (params_of_still (still_of_bare (bare_invoke ..))).of_ok hinvoke
    rw [hp, hparams, hs, hlow]

theorem acts_of_plain {rule : StandardRule} (hrule : rule.plain = true) {cb : Callback}
    (h : (rule.fire cb : Action κ RuleError Unit) b = .ok () b') :
    (rule.frameEffect cb b).Acts b.params b'.params := by
  have heffect : rule.frameEffect cb b = .nothing := by
    cases rule with
    | callMethod method arguments types offset number =>
      cases arguments with
      | frame size => cases hrule
      | _ => cases cb <;> rfl
    | callParam | objectParam | pathParam => cases hrule
    | _ => cases cb <;> rfl
  rw [heffect]
  exact (params_of_still (still_fire hrule cb)).acts h

/-- Every call of a standard rule that gets through acts on the frames as its rule says. -/
theorem acts_fire {rule : StandardRule} {cb : Callback}
    (h : (rule.fire cb : Action κ RuleError Unit) b = .ok () b') :
    (rule.frameEffect cb b).Acts b.params b'.params := by
  cases rule with
  | callMethod method arguments types offset number =>
    cases arguments with
    | frame size =>
      cases cb with
      | start uri name attrs =>
        change openFrame size b = _ at h
        unfold openFrame at h
        split at h <;> cases h
        exact rfl
      | close uri name => exact acts_callDeferred h
      | _ =>
        cases h
        exact rfl
    | _ => exact acts_of_plain rfl h
  | callParam index source number =>
    cases cb with
    | start uri name attrs => exact acts_fillParameter uri name h
    | body uri name text =>
      cases source <;> cases h <;> exact rfl
    | close uri name =>
      cases source with
      | body =>
        obtain ⟨v, m, hpop, hset⟩ := bind_eq_ok.mp h
        obtain ⟨named, hv, rfl⟩ := popNamed_eq_ok hpop
        have htop := (NamedStacks.items_pop hv (parameterTexts number)).1
        have hacts := acts_setParam hset
        unfold frameEffect
        dsimp only
        rw [htop]
        exact hacts
      | _ =>
        cases h
        exact rfl
    | finish =>
      cases h
      cases source <;> exact rfl
  | objectParam index v attr =>
    cases cb with
    | start uri name attrs =>
      cases attr with
      | none => exact acts_setParam h
      | some wanted =>
        unfold frameEffect
        simp only [fire, onStart] at h
        cases hattr : (attrs.value? wanted).isSome with
        | true =>
          rw [if_pos hattr] at h
          simp only [Option.all_some, hattr, if_true]
          exact acts_setParam h
        | false =>
          simp only [hattr] at h
          cases h
          simp only [Option.all_some, hattr]
          exact rfl
    | _ =>
      cases h
      exact rfl
  | pathParam index =>
    cases cb with
    | start uri name attrs => exact acts_setParam h
    | _ =>
      cases h
      exact rfl
  | setNested config =>
    cases cb with
    | body uri name text =>
      have hkeeps : (undecorateChildren : Action κ RuleError Unit).Keeps Binder.params :=
        keeps_undecorateChildren (fun _ => rfl) fun _ _ => rfl
      exact hkeeps.acts h
    | _ =>
      cases h
      exact rfl
  | nodeCreate fragment =>
    cases cb with
    | close uri name => exact (params_of_still still_pop.discard).acts h
    | _ =>
      cases h
      exact rfl
  | _ => exact acts_of_plain rfl h

end StandardRule

end XmlBinding
