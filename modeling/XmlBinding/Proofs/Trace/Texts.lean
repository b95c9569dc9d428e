import XmlBinding.Proofs.Frames
import XmlBinding.Proofs.Trace.Held

/-!
# Kept texts

Some rules keep the text of their element on a stack of their own until the element ends. All of
them keep the same text, and each end takes one of them off, so every end finds the text of its own
element, whichever rules share its stack.
-/
namespace XmlBinding

variable {κ : Type} {b b' : Binder κ}

theorem Binder.items_pushNamed (b : Binder κ) (name own : StackName) (v : Value) :
    (b.pushNamed name v).named.items own =
      if some name = some own then v :: b.named.items own else b.named.items own := by
  refine (b.named.items_push name own v).trans ?_
  by_cases h : own = name
  · subst h
    rw [if_pos rfl, if_pos rfl]
  · rw [if_neg h, if_neg fun heq => h (Option.some.inj heq).symm]

namespace Action

variable {ε α : Type}

theorem named_of_bare {act : Action κ ε α} (h : act.Keeps Binder.bare) :
    act.Keeps Binder.named :=
  h.of_view Binder.named fun _ => rfl

theorem named_pop : (pop : Action κ ε (Option Value)).Keeps Binder.named := by
  refine keeps_modifyGet fun b => ?_
  unfold Binder.pop
  split
  · exact congrArg Held.named (Binder.held_note ..)
  · rfl

theorem named_of_unframed {act : Action κ ε α} (h : act.Keeps Binder.unframed) :
    act.Keeps Binder.named :=
  h.of_view Binder.named fun _ => rfl

/-- The top of a named stack is taken off, and the other stacks stay. -/
theorem items_popNamed {name : StackName} {v : Value}
    (h : (popNamed name : Action κ RuleError Value) b = .ok v b') (own : StackName) :
    if some name = some own then b.named.items own = v :: b'.named.items own
    else b'.named.items own = b.named.items own := by
  obtain ⟨named, hpop, rfl⟩ := popNamed_eq_ok h
  obtain ⟨htop, hrest⟩ := NamedStacks.items_pop hpop own
  by_cases hown : own = name
  · subst hown
    rwa [if_pos rfl]
  · rw [if_neg fun heq => hown (Option.some.inj heq).symm]
    exact hrest hown

end Action

theorem Invokes.named {method : String} {args : List Value} {types : List ScalarType}
    {offset : Int} (h : Invokes method args types offset b b') : b'.named = b.named := by
  obtain ⟨target, s, v, -, -, hs, hinvoke⟩ := h
  rw [(Action.named_of_bare (Action.bare_invoke ..)).of_ok hinvoke, hs]

namespace StandardRule

open XmlBinding.Action

/-- With the text of its element a rule may keep the text, trimmed, and does nothing else to the
named stacks. -/
theorem items_body {rule : StandardRule} {uri name text : String}
    (h : (rule.fire (.body uri name text) : Action κ RuleError Unit) b = .ok () b')
    (own : StackName) :
    b'.named.items own = if rule.textStack? = some own then
      .text (Text.trim text) :: b.named.items own else b.named.items own := by
  have idle (hstack : rule.textStack? = none)
      (hkeeps : (rule.fire (.body uri name text) : Action κ RuleError Unit).Keeps Binder.named) :
      b'.named.items own = if rule.textStack? = some own then
        .text (Text.trim text) :: b.named.items own else b.named.items own := by
    rw [hkeeps.of_ok h, hstack, if_neg nofun]
  cases rule with
  | textProperty property number =>
    cases h
    exact b.items_pushNamed ..
  | setNested config => exact idle rfl (keeps_undecorateChildren (fun _ => rfl) fun _ _ => rfl)
  | nestedChild config => exact idle rfl (named_of_bare (bare_setFromChild ..))
  | callMethod method arguments types offset number =>
    cases arguments with
    | bodyText =>
      cases h
      exact b.items_pushNamed ..
    | _ => exact idle rfl (keeps_pure _)
  | callParam index source number =>
    cases source with
    | body =>
      cases h
      exact b.items_pushNamed ..
    | _ => exact idle rfl (keeps_pure _)
  | storeText trim => exact idle rfl (named_of_bare (bare_storeNonBlank ..))
  | _ => exact idle rfl (keeps_pure _)

/-- Behind the end of a rule the text that it kept is gone, and stacks without flags are the same
otherwise. -/
theorem items_close {rule : StandardRule} {uri name : String}
    (h : (rule.fire (.close uri name) : Action κ RuleError Unit) b = .ok () b')
    {own : StackName} (hflag : rule.flagStack? ≠ some own) :
    if rule.textStack? = some own then ∃ v, b.named.items own = v :: b'.named.items own
    else b'.named.items own = b.named.items own := by
  have idle (hstack : rule.textStack? = none)
      (hkeeps : (rule.fire (.close uri name) : Action κ RuleError Unit).Keeps Binder.named) :
      if rule.textStack? = some own then ∃ v, b.named.items own = v :: b'.named.items own
      else b'.named.items own = b.named.items own := by
    rw [hkeeps.of_ok h, hstack, if_neg nofun]
  have text {texts : StackName} {β : Type} {f : Value → Action κ RuleError β} {answer : β}
      {b' : Binder κ} (hrun : (popNamed texts >>= f) b = .ok answer b')
      (hf : ∀ v, (f v).Keeps Binder.named) :
      if some texts = some own then ∃ v, b.named.items own = v :: b'.named.items own
      else b'.named.items own = b.named.items own := by
    obtain ⟨v, m, hpop, hrest⟩ := bind_eq_ok.mp hrun
    have hitems := items_popNamed hpop own
    rw [(hf v).of_ok hrest]
    by_cases hown : some texts = some own
    · rw [if_pos hown] at hitems ⊢
      exact ⟨v, hitems⟩
    · rwa [if_neg hown] at hitems ⊢
  cases rule with
  | objectCreate className attr => exact idle rfl named_pop.discard
  | factoryCreate source ignoreFailure number =>
    cases ignoreFailure with
    | false => exact idle rfl named_pop.discard
    | true =>
      have hdrop := text h fun v => by
        split
        · exact named_of_bare (bare_note_action ..)
        · exact named_pop.discard
      rw [if_neg (show some (createdFlags number) ≠ some own from hflag)] at hdrop
      rwa [if_neg (show (factoryCreate source true number).textStack? ≠ some own from nofun)]
  | textProperty property number =>
    exact text h fun v => named_of_bare ((bare_top _).bind fun _ => bare_setProperty ..)
  | callMethod method arguments types offset number =>
    cases arguments with
    | bodyText =>
      obtain ⟨args, m, hcollect, hrest⟩ := callDeferred_eq_ok h
      have htext := text hcollect fun _ => keeps_pure _
      cases args with
      | none =>
        obtain rfl : b' = m := hrest
        exact htext
      | some args =>
        rwa [← hrest.named] at htext
    | frame size =>
      exact idle rfl (named_of_unframed (unframed_callDeferred ..))
    | nothing => exact idle rfl (keeps_callDeferred (fun _ => rfl) _ _ _ (keeps_pure _))
  | callParam index source number =>
    cases source with
    | body => exact text h fun v => named_of_unframed (unframed_setParam ..)
    | _ => exact idle rfl (keeps_pure _)
  | link target method type atStart =>
    cases atStart with
    | false => exact idle rfl (named_of_bare (bare_makeLink ..))
    | true => exact idle rfl (keeps_pure _)
  | nodeCreate fragment => exact idle rfl named_pop.discard
  | _ => exact idle rfl (keeps_pure _)

end StandardRule

/-! ### Lists of rules -/

namespace Called

variable {refs : List (RuleRef Empty)} {uri name : String} {b b' : Binder Empty}
  {fs : List (Firing Empty)}

/-- Behind the bodies every rule that keeps its text on a stack has put the text there. -/
theorem items_bodies {text : String} (h : Called .none (.body uri name text) refs b fs b')
    (own : StackName) :
    b'.named.items own =
      List.replicate (refs.countP (·.standard.textStack? = some own)) (.text (Text.trim text)) ++
        b.named.items own := by
  induction h with
  | nil => rfl
  | @cons ref rest b m b' fs hfire _ ih =>
    rw [RuleRef.fire_standard] at hfire
    have hone := StandardRule.items_body hfire own
    rw [show (b.recordCall .none (.body uri name text) ref).named = b.named from
      congrArg Held.named (Binder.held_recordCall ..)] at hone
    rw [ih, hone, List.countP_cons]
    by_cases hstack : ref.standard.textStack? = some own
    · rw [if_pos hstack, if_pos (by simpa using hstack), List.replicate_succ', List.append_assoc]
      rfl
    · rw [if_neg hstack, if_neg (by simpa using hstack)]
      rfl

/-- Behind the ends every rule that keeps its text on a stack has taken a text off. -/
theorem items_ends (h : Called .none (.close uri name) refs b fs b') {own : StackName}
    (hflag : ∀ rule : StandardRule, rule.flagStack? ≠ some own) :
    ∃ dropped, b.named.items own = dropped ++ b'.named.items own ∧
      dropped.length = refs.countP (·.standard.textStack? = some own) := by
  induction h with
  | nil => exact ⟨[], rfl, rfl⟩
  | @cons ref rest b m b' fs hfire _ ih =>
    obtain ⟨dropped, hdropped, hlength⟩ := ih
    rw [RuleRef.fire_standard] at hfire
    have hone := StandardRule.items_close hfire (hflag _)
    rw [show (b.recordCall .none (.close uri name) ref).named = b.named from
      congrArg Held.named (Binder.held_recordCall ..)] at hone
    rw [List.countP_cons]
    by_cases hstack : ref.standard.textStack? = some own
    · rw [if_pos hstack] at hone
      obtain ⟨v, hv⟩ := hone
      refine ⟨v :: dropped, by rw [hv, hdropped]; rfl, ?_⟩
      rw [if_pos (by simpa using hstack), List.length_cons, hlength]
    · rw [if_neg hstack] at hone
      refine ⟨dropped, hone.symm.trans hdropped, ?_⟩
      rw [if_neg (by simpa using hstack), hlength]
      rfl

end Called

end XmlBinding
