import XmlBinding.Proofs.Account.Rules
import XmlBinding.Proofs.Dispatch

/-!
# Balance

What the standard rules of an element put on the stacks and around the matcher is gone when the
element has ended, whatever stands inside it. Its content finds all of it and leaves all of it, by
the same argument one level down; content that is captured calls no rules at all.
-/
namespace XmlBinding

/-! ### Lists of standard rules -/

/-- The standard rule of a reference, where there are no others. -/
def RuleRef.standard (ref : RuleRef Empty) : StandardRule :=
  match ref.rule with
  | .standard rule => rule

/-- Whether the rule captures its element. -/
def RuleRef.capturesNode (ref : RuleRef Empty) : Bool := ref.standard.capturesNode

theorem RuleRef.fire_standard (ref : RuleRef Empty) (cb : Callback) :
    ref.fire .none cb = ref.standard.fire cb := by
  obtain ⟨id, rule | rule⟩ := ref
  · rfl
  · cases rule

theorem RuleRef.startsCapture_start (ref : RuleRef Empty) (uri name : String)
    (attrs : Attributes) :
    ref.startsCapture (.start uri name attrs) = ref.capturesNode := by
  obtain ⟨id, rule | rule⟩ := ref
  · cases rule <;> rfl
  · cases rule

variable {b : Binder Empty} {low : Account Empty} {opened : List (StandardRule × Bool)}
  {nodes : Nat} {decorating texted : List StandardRule}

/-- What the effect of a rule makes of an account, its call makes of it. -/
theorem meets_callRule_account {p : Account Empty → Prop} (ref : RuleRef Empty) (cb : Callback)
    (h : ∀ s : Binder Empty, s.account = b.account →
      (ref.standard.fire cb : Action Empty RuleError Unit).Meets s (fun _ b' => p b'.account)
        fun _ _ => True) :
    (callRule .none cb ref).Meets b (fun _ b' => p b'.account) fun _ _ => True := by
  have hs : (b.recordCall .none cb ref).account = b.account := by
    unfold Binder.recordCall
    split
    · rfl
    · exact Binder.account_note ..
  unfold callRule
  rw [Action.meets_bind, Action.meets_modify, Action.meets_bind, Action.meets_attempt,
    RuleRef.fire_standard]
  refine (h _ hs).mono (fun _ _ => id) fun halt _ _ => ?_
  cases halt <;> trivial

theorem callRules_cons (cb : Callback) (ref : RuleRef Empty) (refs : List (RuleRef Empty)) :
    callRules .none cb (ref :: refs) =
      (callRule .none cb ref >>= fun _ => callRules .none cb refs) := rfl

/-- Behind the starts every rule is open. -/
theorem meets_starts (uri name : String) (attrs : Attributes) (refs : List (RuleRef Empty))
    (h : Stands opened 0 (opened.map Prod.fst) [] b.account low) :
    (callRules .none (.start uri name attrs) refs).Meets b
      (fun _ b' => ∃ opened' : List (StandardRule × Bool),
        opened'.map Prod.fst = (refs.map RuleRef.standard).reverse ++ opened.map Prod.fst ∧
        Stands opened' 0 (opened'.map Prod.fst) [] b'.account low) fun _ _ => True := by
  induction refs generalizing b opened with
  | nil => exact ⟨opened, rfl, h⟩
  | cons ref rest ih =>
    rw [callRules_cons, Action.meets_bind]
    have hcall := meets_callRule_account (b := b)
      (p := fun a => ∃ made, Stands ((ref.standard, made) :: opened) 0
        (ref.standard :: opened.map Prod.fst) [] a low)
      ref (.start uri name attrs) fun s hs => ref.standard.meets_onStart uri name attrs (hs ▸ h)
    refine hcall.mono (fun _ m hm => ?_) fun _ _ => id
    obtain ⟨made, hm⟩ := hm
    refine (ih hm).mono (fun _ b' hb' => ?_) fun _ _ => id
    obtain ⟨opened', hopened', hstands⟩ := hb'
    refine ⟨opened', ?_, hstands⟩
    rw [hopened']
    simp

/-- Behind the bodies no decoration is left, and the texts are kept. -/
theorem meets_bodies (uri name text : String) (refs : List (RuleRef Empty))
    (h : Stands opened nodes (refs.map RuleRef.standard) texted b.account low) :
    (callRules .none (.body uri name text) refs).Meets b
      (fun _ b' => Stands opened nodes [] ((refs.map RuleRef.standard).reverse ++ texted) b'.account
        low) fun _ _ => True := by
  induction refs generalizing b texted with
  | nil => exact h
  | cons ref rest ih =>
    rw [callRules_cons, Action.meets_bind]
    have hcall := meets_callRule_account (b := b)
      (p := (Stands opened nodes (rest.map RuleRef.standard) (ref.standard :: texted) · low))
      ref (.body uri name text) fun s hs => ref.standard.meets_onBody name text (hs ▸ h)
    refine hcall.mono (fun _ m hm => ?_) fun _ _ => id
    rw [List.map_cons, List.reverse_cons, List.append_assoc]
    exact ih hm

/-- Behind the ends nothing is left. -/
theorem meets_ends (uri name : String) (refs : List (RuleRef Empty))
    (hopened : opened.map Prod.fst = refs.map RuleRef.standard)
    (h : Stands opened (refs.countP RuleRef.capturesNode) [] (refs.map RuleRef.standard)
      b.account low) :
    (callRules .none (.close uri name) refs).Meets b (fun _ b' => b'.account = low)
      fun _ _ => True := by
  induction refs generalizing b opened with
  | nil =>
    obtain rfl : opened = [] := List.map_eq_nil_iff.mp hopened
    exact h.eq
  | cons ref rest ih =>
    obtain ⟨⟨rule, made⟩, behind, rfl, hrule, hbehind⟩ := List.map_eq_cons_iff.mp hopened
    obtain rfl : rule = ref.standard := hrule
    have hcount : (ref :: rest).countP RuleRef.capturesNode =
        ref.capturesNode.toNat + rest.countP RuleRef.capturesNode := by
      rw [List.countP_cons, Nat.add_comm]
      cases ref.capturesNode <;> rfl
    rw [hcount] at h
    rw [callRules_cons, Action.meets_bind]
    have hcall := meets_callRule_account (b := b)
      (p := (Stands behind (rest.countP RuleRef.capturesNode) [] (rest.map RuleRef.standard) · low))
      ref (.close uri name) fun s hs => ref.standard.meets_onClose made name (hs ▸ h)
    exact hcall.mono (fun _ m hm => ih hbehind hm) fun _ _ => id

/-! ### Elements -/

namespace Binder

variable {κ : Type} {x : Extension κ}

theorem account_opened (b : Binder κ) (tag : StartTag) (found : List (RuleRef κ)) :
    (b.opened x tag found).account = b.account :=
  account_note ..

theorem account_endCapture_of_none {b : Binder κ} (h : b.capture = none) :
    b.endCapture.account = b.account := congrArg account (endCapture_of_none h)

theorem account_endCapture_of_some {b : Binder κ} {c : Capture} (h : b.capture = some c) :
    b.endCapture.account = b.account.lay (.node c.finish) := by
  unfold endCapture
  rw [h]
  exact account_push ..

theorem account_closing (b : Binder κ) (outer : List (List (RuleRef κ))) :
    (b.closing outer).account = b.endCapture.account :=
  account_note ..

theorem account_leave (b : Binder κ) : b.leave.account = b.account := by
  unfold leave
  split <;> rfl

end Binder

/-- A matcher that finds at most one rule that captures the element. -/
def Matcher.OneNode (m : Matcher (RuleRef Empty)) : Prop :=
  ∀ uri path name attrs found, m.rulesFor? uri path name attrs = some found →
    found.countP RuleRef.capturesNode ≤ 1

/-- Decorations do not bring captures. -/
theorem Decorated.oneNode {n : Nat} {high low : Matcher (RuleRef Empty)}
    (h : Decorated n high low) (hlow : low.OneNode) : high.OneNode := by
  induction h with
  | zero m => exact hlow
  | succ h place id config ih =>
    intro uri path name attrs found hfound
    rw [Matcher.rulesFor?, Option.map_eq_some_iff] at hfound
    obtain ⟨inside, hinside, rfl⟩ := hfound
    have hle := ih hlow uri path name attrs inside hinside
    split
    · rw [List.countP_append]
      exact hle
    · exact hle

/-- Of at most one rule that captures there is one or none. -/
theorem toNat_any_capturesNode {found : List (RuleRef Empty)}
    (h : found.countP RuleRef.capturesNode ≤ 1) :
    (found.any RuleRef.capturesNode).toNat = found.countP RuleRef.capturesNode := by
  cases hany : found.any RuleRef.capturesNode with
  | false =>
    rw [List.any_eq_false] at hany
    exact (List.countP_eq_zero.mpr hany).symm
  | true =>
    obtain ⟨ref, hmem, hcaptures⟩ := List.any_eq_true.mp hany
    have hpos : 0 < found.countP RuleRef.capturesNode :=
      List.countP_pos_iff.mpr ⟨ref, hmem, hcaptures⟩
    rw [Bool.toNat_true]
    omega

/-- Behind the start tag the rules of the element are open, and a node may be captured. -/
theorem meets_start_account (tag : StartTag) {b : Binder Empty} {found : List (RuleRef Empty)}
    (hb : b.capture = none) (hf : b.rulesAt? tag = some found) :
    (deliver .none (.start tag)).Meets b
      (fun _ o => (∃ opened : List (StandardRule × Bool),
          opened.map Prod.fst = (found.map RuleRef.standard).reverse ∧
          Stands opened 0 (opened.map Prod.fst) [] o.account b.account) ∧
        o.capture.isSome = found.any RuleRef.capturesNode) fun _ _ => True := by
  rw [Action.meets_congr (start_eq_callRules tag hb hf)]
  have hstands : Stands [] 0 [] [] (b.opened .none tag found).account b.account := by
    rw [b.account_opened]
    exact .refl _
  have hcapture : (b.opened .none tag found).capture = none := (b.capture_enter tag.name).trans hb
  refine ((meets_starts _ _ _ found hstands).and (meets_callRules Extension.quiet_none _ found
    _)).mono (fun _ o ho => ?_) fun _ _ _ => trivial
  obtain ⟨⟨opened, hopened, hstands⟩, -, hsome, -⟩ := ho
  refine ⟨⟨opened, by rw [hopened, List.map_nil, List.append_nil], hstands⟩, ?_⟩
  rw [hsome, hcapture]
  simp only [RuleRef.startsCapture_start]
  rfl

/-- Behind the end tag all that the element put up is gone. -/
theorem meets_close_account (tag : EndTag) {b : Binder Empty} {low : Account Empty}
    {found : List (RuleRef Empty)} {outer : List (List (RuleRef Empty))}
    {opened : List (StandardRule × Bool)} (hc : b.capture.bind (·.close?) = none)
    (hm : b.matched = found :: outer)
    (hnode : b.capture.isSome.toNat = found.countP RuleRef.capturesNode)
    (hopened : opened.map Prod.fst = (found.map RuleRef.standard).reverse)
    (h : Stands opened 0 (opened.map Prod.fst) [] b.account low) :
    (deliver .none (.close tag)).Meets b (fun _ b' => b'.account = low) fun _ _ => True := by
  rw [Action.meets_congr (close_eq_closeRules tag hc hm)]
  unfold closeRules
  simp only [Action.meets_bind, Action.meets_modify]
  have hstands : Stands opened (found.countP RuleRef.capturesNode) (found.map RuleRef.standard) []
      (b.closing outer).account low := by
    have hdecorating : (opened.map Prod.fst).countP (·.decorates) =
        (found.map RuleRef.standard).countP (·.decorates) := by
      rw [hopened, List.countP_reverse]
    have hmatcher := h.matcher
    rw [hdecorating] at hmatcher
    rw [b.account_closing, ← hnode]
    cases hcapture : b.capture with
    | none =>
      rw [Binder.account_endCapture_of_none hcapture]
      exact ⟨h.objects, h.frames, h.named, hmatcher⟩
    | some c =>
      rw [Binder.account_endCapture_of_some hcapture]
      exact ⟨h.objects.push _, h.frames, h.named, hmatcher⟩
  refine (meets_bodies _ _ _ found hstands).mono (fun _ m hm => ?_) fun _ _ => id
  rw [List.append_nil] at hm
  have hends : opened.map Prod.fst = found.reverse.map RuleRef.standard := by
    rw [hopened, List.map_reverse]
  have hstands' : Stands opened (found.reverse.countP RuleRef.capturesNode) []
      (found.reverse.map RuleRef.standard) m.resumeText.account low := by
    rw [List.countP_reverse, List.map_reverse]
    exact hm
  exact (meets_ends _ _ found.reverse hends hstands').mono
    (fun _ b' hb' => b'.account_leave.trans hb') fun _ _ => id

/-- Content that is captured leaves the account as it was, and the rest does if it does so
elsewhere. -/
theorem meets_inner_account (inner : Content) {o : Binder Empty}
    (ih : o.capture = none → (deliverAll .none inner.events).Meets o
      (fun _ f => f.account = o.account) fun _ _ => True) :
    (deliverAll .none inner.events).Meets o (fun _ f => f.account = o.account) fun _ _ => True := by
  cases hc : o.capture with
  | none => exact ih hc
  | some c =>
    rw [Action.meets_of_ok (deliverAll_captured .none inner o c hc)]
    rfl

/-- Content leaves the account as it was. -/
theorem meets_content_account (c : Content) {b : Binder Empty} (hb : b.capture = none)
    (hnode : b.matcher.OneNode) :
    (deliverAll .none c.events).Meets b (fun _ b' => b'.account = b.account) fun _ _ => True := by
  induction c generalizing b with
  | done => exact rfl
  | text content rest ih =>
    have hm := characters_of_not_capturing content hb
    have hcapture : (b.characters content).capture = none := by rw [hm, hb]
    have haccount : (b.characters content).account = b.account := by rw [hm]; rfl
    change (deliverAll .none rest.events).Meets (b.characters content) _ _
    rw [← haccount]
    exact ih hcapture (by rw [hm]; exact hnode)
  | element tag inner closing rest inner_ih rest_ih =>
    have hquiet := Extension.quiet_none
    rw [deliverAll_element, Action.meets_bind]
    cases hf : b.rulesAt? tag with
    | none =>
      rw [Action.meets_of_error (start_eq_crash tag hb hf)]
      trivial
    | some found =>
      refine ((meets_start hquiet tag b hb).and (meets_start_account tag hb hf)).mono
        (fun _ o ho => ?_) fun _ _ _ => trivial
      obtain ⟨⟨found', hfound', hprogress, hfresh⟩, ⟨opened, hopened, hstands⟩, hsome⟩ := ho
      obtain rfl : found = found' := Option.some.inj (hf.symm.trans hfound')
      have hone : o.matcher.OneNode := hstands.matcher.oneNode hnode
      rw [Action.meets_bind]
      refine ((meets_inner inner (meets_content hquiet inner) o hfresh).and
        (meets_inner_account inner fun ho => inner_ih ho hone)).mono (fun _ f hinner => ?_)
        fun _ _ _ => trivial
      obtain ⟨⟨hclosable, hcapture, hfp⟩, haccount⟩ := hinner
      have hmatched : f.matched = found :: b.matched := by
        rw [hprogress, Binder.progress_opened] at hfp
        exact congrArg Progress.matched hfp
      have hnodes : f.capture.isSome.toNat = found.countP RuleRef.capturesNode := by
        rw [hcapture, hsome, toNat_any_capturesNode (hnode _ _ _ _ _ hf)]
      rw [Action.meets_bind]
      rw [← haccount] at hstands
      refine ((meets_close hquiet closing f found b.matched hclosable hmatched).and
        (meets_close_account closing hclosable hmatched hnodes hopened hstands)).mono
        (fun _ z hz => ?_) fun _ _ _ => trivial
      obtain ⟨⟨hznone, -⟩, hzaccount⟩ := hz
      have hzone : z.matcher.OneNode := by
        rw [show z.matcher = b.matcher from congrArg Account.matcher hzaccount]
        exact hnode
      exact (rest_ih hznone hzone).mono (fun _ b' hb' => hb'.trans hzaccount) fun _ _ => id

/-- **Balance of the standard rules.** Where no list of rules has more than one that captures, an
element with everything inside it leaves the objects, the sizes of the frames, the named stacks and
the matcher with its decorations as it found them. A run that does not get so far ends with a call
that failed. -/
theorem standard_rules_balance (tag : StartTag) (inner : List DocumentEvent) (closing : EndTag)
    (hinner : WellNested inner) (b : Binder Empty) (hb : b.capture = none)
    (hnode : b.matcher.OneNode) :
    (∀ b', deliverAll .none (.start tag :: (inner ++ [.close closing])) b = .ok () b' →
      b'.account = b.account) ∧
    ∀ halt b', deliverAll .none (.start tag :: (inner ++ [.close closing])) b = .error halt b' →
      EndsEarly .none halt b' := by
  obtain ⟨c, rfl⟩ := wellNested_iff.mp hinner
  have hrun := (meets_content Extension.quiet_none (.element tag c closing .done) b hb).and
    (meets_content_account (.element tag c closing .done) hb hnode)
  obtain ⟨hok, herror⟩ := Action.meets_iff.mp hrun
  exact ⟨fun b' h => (hok () b' h).2, fun halt b' h => (herror halt b' h).1⟩

/-- A matcher that has the same rules everywhere has at most one that captures if the list has. -/
theorem Matcher.oneNode_always {rules : List (RuleRef Empty)}
    (h : rules.countP RuleRef.capturesNode ≤ 1) (history : List (Registration (RuleRef Empty))) :
    (Matcher.foreign (.always rules) history).OneNode := by
  intro uri path name attrs found hfound
  obtain rfl : rules = found := Option.some.inj hfound
  exact h

/-- The balance of two rules that a matcher has for every element. -/
theorem standard_rules_balance_of_two_rules :
    let rules : List (RuleRef Empty) :=
      [⟨0, .standard (.nodeCreate false)⟩, ⟨1, .standard (.setNested {})⟩]
    let b : Binder Empty := { matcher := .foreign (.always rules) [] }
    let inner := [.start ⟨"", "b", "b", []⟩, .text "t", .close ⟨"", "b", "b"⟩]
    let es := .start ⟨"", "a", "a", []⟩ :: (inner ++ [.close ⟨"", "a", "a"⟩])
    WellNested inner ∧ b.capture = none ∧ b.matcher.OneNode ∧
      (∀ b', deliverAll .none es b = .ok () b' → b'.account = b.account) ∧
      ∀ halt b', deliverAll .none es b = .error halt b' → EndsEarly .none halt b' :=
  have hnode := Matcher.oneNode_always (by decide) []
  ⟨by decide, rfl, hnode, standard_rules_balance _ _ _ (by decide) _ rfl hnode⟩

end XmlBinding
