import XmlBinding.Proofs.Account

/-!
# Single rules and the account

What the start, the body and the end of one standard rule do to what stands above an account. The
start of a rule puts something up, its body takes its decoration down and may keep the text, and its
end takes down all the rest. A rule that made no object takes none away, because it finds its own
flag on top of its stack.
-/
namespace XmlBinding

variable {κ : Type}

namespace Stands

variable {opened : List (StandardRule × Bool)} {nodes : Nat} {decorating texted : List StandardRule}
  {high low : Account κ} {rule : StandardRule} {made : Bool}

theorem objects_idle (h : Stands opened nodes decorating texted high low)
    (ho : rule.ownsObject made = false) :
    Above (((rule, made) :: opened).countP (fun o => o.1.ownsObject o.2) + nodes)
      high.objects low.objects := by
  rw [List.countP_cons_of_neg (by simp [ho])]
  exact h.objects

theorem objects_push (h : Stands opened nodes decorating texted high low) (v : Value)
    (ho : rule.ownsObject made = true) :
    Above (((rule, made) :: opened).countP (fun o => o.1.ownsObject o.2) + nodes)
      (v :: high.objects) low.objects := by
  rw [List.countP_cons_of_pos (by simp [ho]), Nat.add_right_comm]
  exact h.objects.push v

theorem frames_idle (h : Stands opened nodes decorating texted high low)
    (hf : rule.opensFrame = false) :
    Above (((rule, made) :: opened).countP (·.1.opensFrame)) high.frames low.frames := by
  rw [List.countP_cons_of_neg (by simp [hf])]
  exact h.frames

theorem flagsOn_cons_idle (hg : rule.flagStack? = none) (name : StackName) :
    flagsOn ((rule, made) :: opened) name = flagsOn opened name := by
  simp [flagsOn, hg]

theorem named_idle (h : Stands opened nodes decorating texted high low)
    (hg : rule.flagStack? = none) (name : StackName) :
    Above (texted.countP (·.textStack? = some name)) (high.named name)
      (flagsOn ((rule, made) :: opened) name ++ low.named name) := by
  rw [flagsOn_cons_idle hg]
  exact h.named name

/-- A flag on its stack, while no texts are kept. -/
theorem named_flag (h : Stands opened nodes decorating [] high low) {own : StackName}
    (hg : rule.flagStack? = some own) (name : StackName) :
    Above 0 ((high.mark own (.bool made)).named name)
      (flagsOn ((rule, made) :: opened) name ++ low.named name) := by
  have heq := (h.named name).eq
  unfold flagsOn
  by_cases hn : name = own
  · subst hn
    rw [List.filter_cons_of_pos (by simp [hg]), Account.mark_named_self, heq]
    exact .refl _
  · rw [List.filter_cons_of_neg (by simp [hg, Ne.symm hn]), Account.mark_named_of_ne _ hn, heq]
    exact .refl _

theorem matcher_idle (h : Stands opened nodes decorating texted high low)
    (hd : rule.decorates = false) :
    Decorated ((rule :: decorating).countP (·.decorates)) high.matcher low.matcher := by
  rw [List.countP_cons_of_neg (by simp [hd])]
  exact h.matcher

theorem texts_idle (h : Stands opened nodes decorating texted high low)
    (ht : rule.textStack? = none) (name : StackName) :
    Above ((rule :: texted).countP (·.textStack? = some name)) (high.named name)
      (flagsOn opened name ++ low.named name) := by
  rw [List.countP_cons_of_neg (by simp [ht])]
  exact h.named name

theorem texts_push (h : Stands opened nodes decorating texted high low) {own : StackName}
    (ht : rule.textStack? = some own) (v : Value) (name : StackName) :
    Above ((rule :: texted).countP (·.textStack? = some name)) ((high.mark own v).named name)
      (flagsOn opened name ++ low.named name) := by
  by_cases hn : name = own
  · subst hn
    rw [List.countP_cons_of_pos (by simp [ht]), Account.mark_named_self]
    exact (h.named name).push v
  · rw [List.countP_cons_of_neg (by simp [ht, Ne.symm hn]), Account.mark_named_of_ne _ hn]
    exact h.named name

theorem matcher_of_cons (h : Stands opened nodes (rule :: decorating) texted high low)
    (hd : rule.decorates = false) :
    Decorated (decorating.countP (·.decorates)) high.matcher low.matcher := by
  have hm := h.matcher
  rwa [List.countP_cons_of_neg (by simp [hd])] at hm

theorem objects_pop {k : Bool}
    (h : Stands ((rule, made) :: opened) (k.toNat + nodes) decorating texted high low)
    (hk : (rule.ownsObject made).toNat + k.toNat = 1) :
    Above (opened.countP (fun o => o.1.ownsObject o.2) + nodes) high.objects.tail low.objects := by
  have heq : ((rule, made) :: opened).countP (fun o => o.1.ownsObject o.2) + (k.toNat + nodes) =
      opened.countP (fun o => o.1.ownsObject o.2) + nodes + 1 := by
    rw [List.countP_cons]
    cases hc : rule.ownsObject made
    · rw [hc, Bool.toNat_false] at hk
      rw [if_neg Bool.false_ne_true]
      omega
    · rw [hc, Bool.toNat_true] at hk
      rw [if_pos rfl]
      omega
  have ho := h.objects
  rw [heq] at ho
  exact ho.pop

theorem objects_stay {k : Bool}
    (h : Stands ((rule, made) :: opened) (k.toNat + nodes) decorating texted high low)
    (ho : rule.ownsObject made = false) (hk : k = false) :
    Above (opened.countP (fun o => o.1.ownsObject o.2) + nodes) high.objects low.objects := by
  have hobjects := h.objects
  rwa [List.countP_cons_of_neg (by simp [ho]), hk, Bool.toNat_false, Nat.zero_add] at hobjects

theorem frames_stay (h : Stands ((rule, made) :: opened) nodes decorating texted high low)
    (hf : rule.opensFrame = false) :
    Above (opened.countP (·.1.opensFrame)) high.frames low.frames := by
  have hframes := h.frames
  rwa [List.countP_cons_of_neg (by simp [hf])] at hframes

theorem named_stay (h : Stands ((rule, made) :: opened) nodes decorating (rule :: texted) high low)
    (hg : rule.flagStack? = none) (ht : rule.textStack? = none) (name : StackName) :
    Above (texted.countP (·.textStack? = some name)) (high.named name)
      (flagsOn opened name ++ low.named name) := by
  have hnamed := h.named name
  rwa [List.countP_cons_of_neg (by simp [ht]), flagsOn_cons_idle hg] at hnamed

theorem named_text (h : Stands ((rule, made) :: opened) nodes decorating (rule :: texted) high low)
    {own : StackName} (hg : rule.flagStack? = none) (ht : rule.textStack? = some own)
    (name : StackName) :
    Above (texted.countP (·.textStack? = some name)) ((high.unmark own).named name)
      (flagsOn opened name ++ low.named name) := by
  have hnamed := h.named name
  rw [flagsOn_cons_idle hg] at hnamed
  by_cases hn : name = own
  · subst hn
    rw [List.countP_cons_of_pos (by simp [ht])] at hnamed
    rw [Account.unmark_named_self]
    exact hnamed.pop
  · rw [List.countP_cons_of_neg (by simp [ht, Ne.symm hn])] at hnamed
    rwa [Account.unmark_named_of_ne _ hn]

/-- On a stack of flags the flag of the latest rule is on top. -/
theorem top_flag (h : Stands ((rule, made) :: opened) nodes decorating (rule :: texted) high low)
    {own : StackName} (hg : rule.flagStack? = some own) :
    high.named own = .bool made :: (flagsOn opened own ++ low.named own) := by
  have hnamed := h.named own
  rw [List.countP_eq_zero.mpr fun other _ => by
    simpa using StandardRule.textStack?_ne_flagStack? hg] at hnamed
  rw [hnamed.eq]
  unfold flagsOn
  rw [List.filter_cons_of_pos (by simp [hg])]
  rfl

theorem named_unflag
    (h : Stands ((rule, made) :: opened) nodes decorating (rule :: texted) high low)
    {own : StackName} (hg : rule.flagStack? = some own) (ht : rule.textStack? = none)
    (name : StackName) :
    Above (texted.countP (·.textStack? = some name)) ((high.unmark own).named name)
      (flagsOn opened name ++ low.named name) := by
  by_cases hn : name = own
  · subst hn
    rw [Account.unmark_named_self, h.top_flag hg, List.tail_cons, List.countP_eq_zero.mpr
      fun other _ => by simpa using StandardRule.textStack?_ne_flagStack? hg]
    exact .refl _
  · have hnamed := h.named name
    have hflags : flagsOn ((rule, made) :: opened) name = flagsOn opened name := by
      simp [flagsOn, hg, Ne.symm hn]
    rw [hflags, List.countP_cons_of_neg (by simp [ht])] at hnamed
    rwa [Account.unmark_named_of_ne _ hn]

/-- A rule that puts up nothing may count as started. -/
theorem start_idle (h : Stands opened nodes decorating texted high low)
    (ho : rule.ownsObject made = false) (hf : rule.opensFrame = false)
    (hd : rule.decorates = false) (hg : rule.flagStack? = none) :
    Stands ((rule, made) :: opened) nodes (rule :: decorating) texted high low :=
  ⟨h.objects_idle ho, h.frames_idle hf, h.named_idle hg, h.matcher_idle hd⟩

end Stands

namespace StandardRule

open XmlBinding.Action Binder

theorem meets_create (className attr : Option String) (attrs : Attributes) (b : Binder κ) :
    (create className attr attrs : Action κ RuleError Unit).Meets b
      (fun _ b' => ∃ v, b'.account = b.account.lay v) fun _ _ => True := by
  unfold create
  simp only [meets_bind, meets_get, meets_lift]
  refine ⟨fun name _ => ?_, fun _ _ => trivial⟩
  split
  · trivial
  · simp only [meets_bind, meets_set, meets_note, meets_push]
    exact ⟨_, (account_push ..).trans (congrArg (Account.lay · _) (account_note ..))⟩

/-- A factory rule puts its product on the stack. Where it may fail, it may put nothing there and
writes down whether it did. -/
theorem meets_produceObject (source : FactorySource) (ignoreFailure : Bool) (created : StackName)
    (attrs : Attributes) (b : Binder κ) :
    (produceObject source ignoreFailure created attrs : Action κ RuleError Unit).Meets b
      (fun _ b' => ∃ v made, b'.account =
        let a := if made || !ignoreFailure then b.account.lay v else b.account
        if ignoreFailure then a.mark created (.bool made) else a) fun _ _ => True := by
  unfold produceObject
  simp only [meets_bind, meets_get]
  obtain ⟨cause | v, heap⟩ := produce b source attrs
  · cases ignoreFailure
    · trivial
    · refine ⟨.null, false, (account_pushNamed ..).trans ?_⟩
      exact congrArg (Account.mark · created (.bool false)) (account_note ..)
  · have hpush : (Binder.push { b with heap } v).account = b.account.lay v := account_push ..
    cases ignoreFailure
    · exact ⟨v, true, hpush⟩
    · refine ⟨v, true, (account_pushNamed ..).trans ?_⟩
      exact congrArg (Account.mark · created (.bool true)) hpush

/-- The account after the start of a rule. -/
theorem meets_onStart (rule : StandardRule) (uri name : String) (attrs : Attributes)
    {opened : List (StandardRule × Bool)} {decorating : List StandardRule} {b : Binder κ}
    {low : Account κ} (h : Stands opened 0 decorating [] b.account low) :
    (rule.onStart uri name attrs : Action κ RuleError Unit).Meets b
      (fun _ b' => ∃ made, Stands ((rule, made) :: opened) 0 (rule :: decorating) [] b'.account low)
      fun _ _ => True := by
  have idle {act : Action κ RuleError Unit} (hact : act.Keeps account)
      (ho : rule.ownsObject false = false) (hf : rule.opensFrame = false)
      (hd : rule.decorates = false) (hg : rule.flagStack? = none) :
      act.Meets b (fun _ b' => ∃ made,
        Stands ((rule, made) :: opened) 0 (rule :: decorating) [] b'.account low) fun _ _ => True :=
    (hact.meets (fun a => Stands ((rule, false) :: opened) 0 (rule :: decorating) [] a low)
      (h.start_idle ho hf hd hg)).mono (fun _ _ h => ⟨false, h⟩) fun _ _ _ => trivial
  cases rule with
  | objectCreate className attr =>
    refine (meets_create className attr attrs b).mono (fun _ b' hb' => ?_) fun _ _ => id
    obtain ⟨v, hv⟩ := hb'
    rw [hv]
    exact ⟨false, h.objects_push v rfl, h.frames_idle rfl, h.named_idle rfl, h.matcher_idle rfl⟩
  | factoryCreate source ignoreFailure number =>
    refine (meets_produceObject source ignoreFailure _ attrs b).mono (fun _ b' hb' => ?_)
      fun _ _ => id
    obtain ⟨v, made, hv⟩ := hb'
    rw [hv]
    refine ⟨made, ?_⟩
    cases ignoreFailure
    · have ho : StandardRule.ownsObject (.factoryCreate source false number) made = true :=
        Bool.or_true made
      rw [Bool.not_false, Bool.or_true, if_pos rfl, if_neg Bool.false_ne_true]
      exact ⟨h.objects_push v ho, h.frames_idle rfl, h.named_idle rfl, h.matcher_idle rfl⟩
    · cases made
      · exact ⟨h.objects_idle rfl, h.frames_idle rfl, h.named_flag rfl, h.matcher_idle rfl⟩
      · exact ⟨h.objects_push v rfl, h.frames_idle rfl, h.named_flag rfl, h.matcher_idle rfl⟩
  | callMethod method arguments types offset number =>
    cases arguments
    case frame size =>
      change (openFrame size).Meets b _ _
      unfold openFrame
      split
      · refine ⟨false, h.objects_idle rfl, ?_, h.named_idle rfl, h.matcher_idle rfl⟩
        rw [List.countP_cons_of_pos rfl]
        exact h.frames.push _
      · trivial
    all_goals exact idle (keeps_pure _) rfl rfl rfl rfl
  | setNested config =>
    refine ⟨false, h.objects_idle rfl, h.frames_idle rfl, h.named_idle rfl, ?_⟩
    rw [List.countP_cons_of_pos rfl]
    exact h.matcher.succ ..
  | setProperties aliases ignoreMissing =>
    exact idle (account_of_bare (bare_setFromAttributes ..)) rfl rfl rfl rfl
  | setProperty nameAttribute valueAttribute =>
    exact idle (account_of_bare (bare_setNamedProperty ..)) rfl rfl rfl rfl
  | callParam index source number =>
    exact idle (account_fillParameter ..) rfl rfl rfl rfl
  | objectParam index v attr =>
    refine idle ?_ rfl rfl rfl rfl
    cases attr with
    | none => exact account_setParam ..
    | some wanted =>
      simp only [onStart]
      split
      · exact account_setParam ..
      · exact keeps_pure _
  | pathParam index =>
    exact idle (keeps_get.bind fun _ => account_setParam ..) rfl rfl rfl rfl
  | link target method type atStart =>
    refine idle ?_ rfl rfl rfl rfl
    cases atStart
    · exact keeps_pure _
    · exact account_of_bare (bare_makeLink ..)
  | nodeCreate fragment => exact idle (keeps_modify fun _ => rfl) rfl rfl rfl rfl
  | textProperty property number => exact idle (keeps_pure _) rfl rfl rfl rfl
  | nestedChild config => exact idle (keeps_pure _) rfl rfl rfl rfl
  | storeText trim => exact idle (keeps_pure _) rfl rfl rfl rfl

theorem meets_undecorateChildren {b : Binder κ} {inner : Matcher (RuleRef κ)}
    {place : Option (List Char)} {extra : RuleRef κ}
    (h : b.matcher = .decorated inner place extra) :
    (undecorateChildren : Action κ RuleError Unit).Meets b
      (fun _ b' => b'.account = { b.account with matcher := inner }) fun _ _ => True := by
  have hu : b.undecorate = (true, { b with matcher := inner }) := by
    unfold undecorate
    rw [h]
    rfl
  unfold undecorateChildren
  rw [meets_bind, meets_modifyGet, hu]
  exact rfl

/-- The account after a rule got the text: its decoration is gone, and its text may be kept. -/
theorem meets_onBody (rule : StandardRule) (name text : String)
    {opened : List (StandardRule × Bool)} {nodes : Nat} {decorating texted : List StandardRule}
    {b : Binder κ} {low : Account κ}
    (h : Stands opened nodes (rule :: decorating) texted b.account low) :
    (rule.onBody name text : Action κ RuleError Unit).Meets b
      (fun _ b' => Stands opened nodes decorating (rule :: texted) b'.account low)
      fun _ _ => True := by
  have idle {act : Action κ RuleError Unit} (hact : act.Keeps account)
      (hd : rule.decorates = false) (ht : rule.textStack? = none) :
      act.Meets b (fun _ b' => Stands opened nodes decorating (rule :: texted) b'.account low)
        fun _ _ => True :=
    (hact.meets (fun a => Stands opened nodes decorating (rule :: texted) a low)
      ⟨h.objects, h.frames, h.texts_idle ht, h.matcher_of_cons hd⟩).mono (fun _ _ => id)
      fun _ _ _ => trivial
  have kept {own : StackName} (v : Value) (hd : rule.decorates = false)
      (ht : rule.textStack? = some own) :
      (modify (·.pushNamed own v) : Action κ RuleError PUnit).Meets b
        (fun _ b' => Stands opened nodes decorating (rule :: texted) b'.account low)
        fun _ _ => True := by
    rw [meets_modify, account_pushNamed]
    exact ⟨h.objects, h.frames, h.texts_push ht v, h.matcher_of_cons hd⟩
  cases rule with
  | textProperty property number => exact kept _ rfl rfl
  | setNested config =>
    have hm := h.matcher
    rw [List.countP_cons_of_pos rfl] at hm
    cases hmatcher : b.account.matcher with
    | decorated inner place extra =>
      refine (meets_undecorateChildren hmatcher).mono (fun _ b' hb' => ?_) fun _ _ => id
      rw [hb']
      rw [hmatcher] at hm
      refine ⟨h.objects, h.frames, h.texts_idle rfl, ?_⟩
      cases hm with
      | succ hinner => exact hinner
    | _ =>
      rw [hmatcher] at hm
      cases hm
  | nestedChild config => exact idle (account_of_bare (bare_setFromChild ..)) rfl rfl
  | callMethod method arguments types offset number =>
    cases arguments
    case bodyText => exact kept _ rfl rfl
    all_goals exact idle (keeps_pure _) rfl rfl
  | callParam index source number =>
    cases source
    case body => exact kept _ rfl rfl
    all_goals exact idle (keeps_pure _) rfl rfl
  | storeText trim => exact idle (account_of_bare (bare_storeNonBlank ..)) rfl rfl
  | _ => exact idle (keeps_pure _) rfl rfl

theorem meets_discard_pop (b : Binder κ) : (discard pop : Action κ RuleError Unit).Meets b
    (fun _ b' => b'.account = { b.account with objects := b.account.objects.tail })
    fun _ _ => True := by
  rw [meets_discard]
  exact b.account_pop

/-- A product goes off the stack unless its flag says that there is none. -/
theorem meets_dropProduct {own : StackName} {made : Bool} {rest : List Value} {b : Binder κ}
    (h : b.account.named own = .bool made :: rest) :
    (dropProduct true own : Action κ RuleError Unit).Meets b (fun _ b' => b'.account =
      if made then { b.account.unmark own with objects := b.account.objects.tail }
      else b.account.unmark own) fun _ _ => True := by
  change (popNamed own >>= _ : Action κ RuleError Unit).Meets b _ _
  rw [meets_bind]
  refine (meets_popNamed own b).mono (fun v m hm => ?_) fun _ _ => id
  obtain ⟨htop, hunmark⟩ := hm
  rw [h] at htop
  obtain rfl : Value.bool made = v := (List.cons.inj htop).1
  cases made
  · exact (account_note ..).trans hunmark
  · refine (meets_discard_pop m).mono (fun _ b' hb' => ?_) fun _ _ => id
    rw [hb', hunmark]
    rfl

/-- The account after the end of a rule: all that it put up is gone. -/
theorem meets_onClose (rule : StandardRule) (made : Bool) (name : String)
    {opened : List (StandardRule × Bool)} {nodes : Nat} {decorating texted : List StandardRule}
    {b : Binder κ} {low : Account κ}
    (h : Stands ((rule, made) :: opened) (rule.capturesNode.toNat + nodes) decorating
      (rule :: texted) b.account low) :
    (rule.onClose name : Action κ RuleError Unit).Meets b
      (fun _ b' => Stands opened nodes decorating texted b'.account low) fun _ _ => True := by
  have idle {act : Action κ RuleError Unit} (hact : act.Keeps account)
      (ho : rule.ownsObject made = false) (hk : rule.capturesNode = false)
      (hf : rule.opensFrame = false) (hg : rule.flagStack? = none) (ht : rule.textStack? = none) :
      act.Meets b (fun _ b' => Stands opened nodes decorating texted b'.account low)
        fun _ _ => True :=
    (hact.meets (Stands opened nodes decorating texted · low)
      ⟨h.objects_stay ho hk, h.frames_stay hf, h.named_stay hg ht, h.matcher⟩).mono
      (fun _ _ => id) fun _ _ _ => trivial
  have text {own : StackName} (ho : rule.ownsObject made = false) (hk : rule.capturesNode = false)
      (hf : rule.opensFrame = false) (hg : rule.flagStack? = none)
      (ht : rule.textStack? = some own) :
      (popNamed own : Action κ RuleError Value).Meets b
        (fun _ b' => Stands opened nodes decorating texted b'.account low) fun _ _ => True := by
    refine (meets_popNamed own b).mono (fun v b' hb' => ?_) fun _ _ => id
    rw [hb'.2]
    exact ⟨h.objects_stay ho hk, h.frames_stay hf, h.named_text hg ht, h.matcher⟩
  have drop (ho : (rule.ownsObject made).toNat + rule.capturesNode.toNat = 1)
      (hf : rule.opensFrame = false) (hg : rule.flagStack? = none) (ht : rule.textStack? = none) :
      (discard pop : Action κ RuleError Unit).Meets b
        (fun _ b' => Stands opened nodes decorating texted b'.account low) fun _ _ => True := by
    refine (meets_discard_pop b).mono (fun _ b' hb' => ?_) fun _ _ => id
    rw [hb']
    exact ⟨h.objects_pop ho, h.frames_stay hf, h.named_stay hg ht, h.matcher⟩
  cases rule with
  | objectCreate className attr => exact drop rfl rfl rfl rfl
  | factoryCreate source ignoreFailure number =>
    cases ignoreFailure
    · refine drop ?_ rfl rfl rfl
      rw [ownsObject, Bool.not_false, Bool.or_true]
      rfl
    · refine (meets_dropProduct (h.top_flag rfl)).mono (fun _ b' hb' => ?_) fun _ _ => id
      rw [hb']
      cases made
      · exact ⟨h.objects_stay rfl rfl, h.frames_stay rfl, h.named_unflag rfl rfl, h.matcher⟩
      · exact ⟨h.objects_pop rfl, h.frames_stay rfl, h.named_unflag rfl rfl, h.matcher⟩
  | textProperty property number =>
    exact Keeps.meets_of (p := (Stands opened nodes decorating texted · low))
      (text rfl rfl rfl rfl rfl) fun _ =>
        account_of_bare ((bare_top _).bind fun _ => bare_setProperty ..)
  | callMethod method arguments types offset number =>
    refine Keeps.meets_of (p := (Stands opened nodes decorating texted · low)) ?_ fun args => ?_
    · cases arguments with
      | bodyText =>
        exact Keeps.meets_of (p := (Stands opened nodes decorating texted · low))
          (text rfl rfl rfl rfl rfl) fun _ => keeps_pure _
      | nothing =>
        exact ⟨h.objects_stay rfl rfl, h.frames_stay rfl, h.named_stay rfl rfl, h.matcher⟩
      | frame size =>
        refine Keeps.meets_of (p := (Stands opened nodes decorating texted · low)) ?_
          fun frame => ?_
        · change Stands opened nodes decorating texted b.popFrame.2.account low
          rw [account_popFrame]
          have hframes := h.frames
          rw [List.countP_cons_of_pos rfl] at hframes
          exact ⟨h.objects_stay rfl rfl, hframes.pop, h.named_stay rfl rfl, h.matcher⟩
        · split
          · exact keeps_fail _
          · split
            · exact (account_of_bare (bare_note_action ..)).bind fun _ => keeps_pure _
            · exact keeps_pure _
    · split
      · exact keeps_pure _
      · exact account_of_bare ((bare_callTarget _).bind fun _ => keeps_get.bind fun _ =>
          (bare_note_action ..).bind fun _ => (bare_invoke ..).discard)
  | callParam index source number =>
    cases source
    case body =>
      exact Keeps.meets_of (p := (Stands opened nodes decorating texted · low))
        (text rfl rfl rfl rfl rfl) fun _ => account_setParam ..
    all_goals exact idle (keeps_pure _) rfl rfl rfl rfl rfl
  | link target method type atStart =>
    cases atStart
    · exact idle (account_of_bare (bare_makeLink ..)) rfl rfl rfl rfl rfl
    · exact idle (keeps_pure _) rfl rfl rfl rfl rfl
  | nodeCreate fragment => exact drop rfl rfl rfl rfl
  | _ => exact idle (keeps_pure _) rfl rfl rfl rfl rfl

end StandardRule

end XmlBinding
