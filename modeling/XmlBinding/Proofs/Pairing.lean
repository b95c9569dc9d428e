import Mathlib.Data.List.Induction
import XmlBinding.Proofs.Balance
import XmlBinding.Proofs.Captured
import XmlBinding.Proofs.Root

/-!
# What the ends of an element take away

The rules of an element put their objects on the stack at its start tag, in their order, and take
objects off at its end tag in the opposite order. A captured node comes on the stack in between,
above all of these objects, whichever rule it belongs to, and of several rules that capture the
element only the last one leaves a node. The ends know nothing of this: each of them takes as many
objects off the top as its rule should have there. So the rule that captures takes its node away if
it is the only one and no rule behind it laid an object; otherwise the wrong objects go.
-/
namespace XmlBinding

/-! ### What a rule lays and owes -/

namespace Firing

variable {κ : Type}

/-- The objects that a call put on the stack. -/
def laid (f : Firing κ) : List Value :=
  f.after.stack.take (f.after.stack.length - f.before.stack.length)

theorem laid_eq {f : Firing κ} {vs : List Value} (h : f.after.stack = vs ++ f.before.stack) :
    f.laid = vs := by
  unfold laid
  rw [h, List.length_append, Nat.add_sub_cancel]
  exact List.take_left

/-- The number of objects that a rule takes away in the end, given its start: those that it laid, and
one for the node if it captures its element. -/
def owed (f : Firing Empty) : Nat := f.call.rule.capturesNode.toNat + f.laid.length

end Firing

namespace Binder

variable {κ : Type}

/-- The stacks on which factory rules write whether there is a product. -/
def flags (b : Binder κ) (number : Nat) : List Value :=
  b.named.items (StandardRule.createdFlags number)

/-- The objects, and what is known of their making. -/
def shelf (b : Binder κ) : List Value × (Nat → List Value) := (b.stack, b.flags)

theorem shelf_recordCall (x : Extension κ) (cb : Callback) (ref : RuleRef κ) (b : Binder κ) :
    (b.recordCall x cb ref).shelf = b.shelf := by
  rw [b.recordCall_eq]
  rfl

end Binder

namespace StandardRule

open XmlBinding.Action

variable {rule : StandardRule} {b b' : Binder Empty} {uri name : String}

/-- Of a rule that moves no objects the shelf shows nothing. -/
theorem keeps_shelf_fire (h : rule.movesObjects = false) (cb : Callback) :
    (rule.fire cb : Action Empty RuleError Unit).Keeps Binder.shelf := by
  refine keeps_fire_unmoved ⟨fun _ => rfl, fun _ => rfl, fun _ _ _ => rfl, ?_⟩ h cb
  intro b own named htext hnamed
  have hflags : Binder.flags { b with named } = b.flags := by
    funext number
    have hflag : (factoryCreate .elementBean true number).flagStack? = some (createdFlags number) :=
      rfl
    exact hnamed _ fun heq => textStack?_ne_flagStack? hflag (heq ▸ htext)
  exact congrArg (Prod.mk b.stack) hflags

theorem unmoved (h : rule.movesObjects = false) (made : Bool) :
    rule.capturesNode = false ∧ rule.ownsObject made = false ∧ rule.flagStack? = none := by
  cases rule with
  | objectCreate | factoryCreate | nodeCreate => cases h
  | _ => exact ⟨rfl, rfl, rfl⟩

theorem ownsObject_of_capturesNode (h : rule.capturesNode = true) (made : Bool) :
    rule.ownsObject made = false := by
  cases rule with
  | nodeCreate fragment => rfl
  | _ => cases h

/-- A start lays what its rule owns, and a factory rule may write that down. -/
theorem shelf_start {attrs : Attributes}
    (h : (rule.fire (.start uri name attrs) : Action Empty RuleError Unit) b = .ok () b') :
    ∃ made laid, b'.stack = laid ++ b.stack ∧ laid.length = (rule.ownsObject made).toNat ∧
      ∀ number, b'.flags number = flagsOn [(rule, made)] (createdFlags number) ++ b.flags number := by
  obtain ⟨made, hstands⟩ :=
    (meets_of_ok h).mp (rule.meets_onStart uri name attrs (Stands.refl b.account))
  obtain ⟨laid, hlaid, hlength⟩ := hstands.objects
  refine ⟨made, laid, hlaid, hlength.trans ?_, fun number => (hstands.named _).eq⟩
  rw [List.countP_singleton]
  cases rule.ownsObject made <;> rfl

/-- Bodies leave the shelf alone. -/
theorem shelf_body {text : String}
    (h : (rule.fire (.body uri name text) : Action Empty RuleError Unit) b = .ok () b') :
    b'.shelf = b.shelf := by
  cases hmoves : rule.movesObjects with
  | false => exact (keeps_shelf_fire hmoves _).of_ok h
  | true =>
    cases rule with
    | objectCreate | factoryCreate | nodeCreate =>
      cases h
      rfl
    | _ => cases hmoves

theorem flagsOn_of_none (h : rule.flagStack? = none) (made : Bool) (name : StackName) :
    flagsOn [(rule, made)] name = [] := by
  simp [flagsOn, h]

/-- A rule that takes an object off in the end and writes nothing down. -/
theorem shelf_pop (h : (discard pop : Action Empty RuleError Unit) b = .ok () b') :
    b'.stack = b.stack.drop 1 ∧ b'.flags = b.flags := by
  have haccount := (meets_of_ok h).mp (meets_discard_pop b)
  refine ⟨(congrArg Account.objects haccount).trans List.drop_one.symm, funext fun number => ?_⟩
  exact congrArg (Account.named · (createdFlags number)) haccount

/-- A factory rule that may fail takes its product off and strikes out what it wrote down. -/
theorem shelf_dropProduct {made : Bool} {number : Nat} {rest : List Value}
    (hflag : b.flags number = .bool made :: rest)
    (h : (dropProduct true (createdFlags number) : Action Empty RuleError Unit) b = .ok () b') :
    b'.stack = b.stack.drop made.toNat ∧ b'.flags number = rest ∧
      ∀ other ≠ number, b'.flags other = b.flags other := by
  have haccount := (meets_of_ok h).mp (meets_dropProduct hflag)
  have hnamed : b'.account.named = (b.account.unmark (createdFlags number)).named := by
    rw [haccount]
    cases made <;> rfl
  refine ⟨?_, ?_, fun other hother => ?_⟩
  · have hobjects := congrArg Account.objects haccount
    cases made
    · exact hobjects
    · exact hobjects.trans List.drop_one.symm
  · have htop := congrFun hnamed (createdFlags number)
    rw [Account.unmark_named_self] at htop
    exact htop.trans (congrArg List.tail hflag)
  · have hne : createdFlags other ≠ createdFlags number := by
      simpa [createdFlags] using hother
    exact (congrFun hnamed (createdFlags other)).trans (Account.unmark_named_of_ne _ hne)

/-- An end takes off the top what its rule owns, and one object more if the rule captures. -/
theorem shelf_close {made : Bool} {low : Nat → List Value}
    (hflags : ∀ number, b.flags number =
      flagsOn [(rule, made)] (createdFlags number) ++ low number)
    (h : (rule.fire (.close uri name) : Action Empty RuleError Unit) b = .ok () b') :
    b'.stack = b.stack.drop (rule.capturesNode.toNat + (rule.ownsObject made).toNat) ∧
      b'.flags = low := by
  have unflagged (hnone : rule.flagStack? = none) : b.flags = low := funext fun number => by
    rw [hflags, flagsOn_of_none hnone, List.nil_append]
  cases hmoves : rule.movesObjects with
  | false =>
    obtain ⟨hcaptures, howns, hnone⟩ := unmoved hmoves made
    have hshelf := (keeps_shelf_fire hmoves _).of_ok h
    rw [hcaptures, howns]
    exact ⟨congrArg Prod.fst hshelf, (congrArg Prod.snd hshelf).trans (unflagged hnone)⟩
  | true =>
    cases rule with
    | objectCreate className attr =>
      obtain ⟨hstack, hsame⟩ := shelf_pop h
      exact ⟨hstack, hsame.trans (unflagged rfl)⟩
    | nodeCreate fragment =>
      obtain ⟨hstack, hsame⟩ := shelf_pop h
      exact ⟨hstack, hsame.trans (unflagged rfl)⟩
    | factoryCreate source ignoreFailure own =>
      cases ignoreFailure with
      | false =>
        obtain ⟨hstack, hsame⟩ := shelf_pop h
        refine ⟨?_, hsame.trans (unflagged rfl)⟩
        cases made <;> exact hstack
      | true =>
        have hflag : b.flags own = .bool made :: low own := by
          rw [hflags]
          simp [flagsOn, flagStack?]
        obtain ⟨hstack, hown, hothers⟩ := shelf_dropProduct hflag h
        refine ⟨?_, funext fun number => ?_⟩
        · cases made <;> exact hstack
        · by_cases hnumber : number = own
          · rw [hnumber]
            exact hown
          · rw [hothers number hnumber, hflags]
            have hne : createdFlags own ≠ createdFlags number := by
              simpa [createdFlags] using Ne.symm hnumber
            simp [flagsOn, flagStack?, hne]
    | _ => cases hmoves

/-- What a rule laid at the start tag it is owed at the end tag, one more if it captures, whatever has
come on top of it since. -/
theorem exists_laid {attrs : Attributes} {uri' name' : String} {s o e m : Binder Empty}
    (hstart : (rule.fire (.start uri name attrs) : Action Empty RuleError Unit) s = .ok () o)
    (hend : (rule.fire (.close uri' name') : Action Empty RuleError Unit) e = .ok () m)
    (hflags : e.flags = o.flags) :
    ∃ laid, o.stack = laid ++ s.stack ∧ (rule.capturesNode = true → laid = []) ∧
      m.stack = e.stack.drop (rule.capturesNode.toNat + laid.length) ∧ m.flags = s.flags := by
  obtain ⟨made, laid, hstack, hlength, hwritten⟩ := shelf_start hstart
  have hread (number : Nat) : e.flags number =
      flagsOn [(rule, made)] (createdFlags number) ++ s.flags number := by
    rw [hflags, hwritten]
  obtain ⟨htaken, hleft⟩ := shelf_close hread hend
  refine ⟨laid, hstack, fun hcaptures => ?_, ?_, hleft⟩
  · refine List.eq_nil_of_length_eq_zero (hlength.trans ?_)
    rw [ownsObject_of_capturesNode hcaptures, Bool.toNat_false]
  · rw [hlength]
    exact htaken

end StandardRule

/-! ### Starts and ends in pairs -/

/-- The calls of rules at a start tag and at the end tag, the last rule first, seen from inside: what
was laid is taken off again from the top of whatever is there. -/
inductive Rounds : List Value → List Value → List (Firing Empty × Firing Empty) →
    List Value → List Value → Prop
  | done (high top : List Value) : Rounds high top [] high top
  | turn {s e : Firing Empty} {pairs : List (Firing Empty × Firing Empty)} {low rest : List Value}
      (hnode : s.call.rule.capturesNode = true → s.laid = [])
      (hlaid : s.after.stack = s.laid ++ s.before.stack)
      (howed : e.after.stack = e.before.stack.drop s.owed)
      (hrounds : Rounds s.before.stack e.after.stack pairs low rest) :
      Rounds s.after.stack e.before.stack ((s, e) :: pairs) low rest

namespace Rounds

variable {high top low rest : List Value} {pairs more : List (Firing Empty × Firing Empty)}

theorem mem (h : Rounds high top pairs low rest) {s e : Firing Empty} (hmem : (s, e) ∈ pairs) :
    s.after.stack = s.laid ++ s.before.stack ∧ e.after.stack = e.before.stack.drop s.owed := by
  induction h with
  | done => cases hmem
  | turn _ hlaid howed _ ih =>
    obtain heq | hmem := List.mem_cons.mp hmem
    · cases heq
      exact ⟨hlaid, howed⟩
    · exact ih hmem

/-- Outside all rounds is what stood below, less what the ends took: one for every rule that captures,
and as many as were laid. -/
theorem total (h : Rounds high top pairs low rest) :
    high = pairs.flatMap (·.1.laid) ++ low ∧
      rest = top.drop
        (pairs.countP (·.1.call.rule.capturesNode) + (pairs.flatMap (·.1.laid)).length) := by
  induction h with
  | done => exact ⟨rfl, rfl⟩
  | @turn s e pairs _ _ _ hlaid howed _ ih =>
    obtain ⟨hbefore, hrest⟩ := ih
    refine ⟨?_, ?_⟩
    · rw [hlaid, hbefore, List.flatMap_cons, List.append_assoc]
    · have hcount : ((s, e) :: pairs).countP (·.1.call.rule.capturesNode) =
          pairs.countP (·.1.call.rule.capturesNode) + s.call.rule.capturesNode.toNat := by
        rw [List.countP_cons]
        cases s.call.rule.capturesNode <;> rfl
      rw [hrest, howed, List.drop_drop, hcount, List.flatMap_cons, List.length_append]
      congr 1
      unfold Firing.owed
      dsimp only
      omega

theorem split (h : Rounds high top (pairs ++ more) low rest) :
    ∃ m t, Rounds high top pairs m t ∧ Rounds m t more low rest := by
  induction pairs generalizing high top with
  | nil => exact ⟨high, top, .done high top, h⟩
  | cons pair pairs ih =>
    cases h with
    | turn hnode hlaid howed hrounds =>
      obtain ⟨m, t, hfront, hback⟩ := ih hrounds
      exact ⟨m, t, .turn hnode hlaid howed hfront, hback⟩

/-- With nothing above, every end finds what its start left and leaves what its start found. -/
theorem level (h : Rounds high top pairs low rest) (htop : top = high)
    (hnone : ∀ pair ∈ pairs, pair.1.call.rule.capturesNode = false) :
    rest = low ∧ ∀ pair ∈ pairs,
      pair.2.before.stack = pair.1.after.stack ∧ pair.2.after.stack = pair.1.before.stack := by
  induction h with
  | done => exact ⟨htop, List.forall_mem_nil _⟩
  | @turn s e pairs low rest _ hlaid howed _ ih =>
    have hplain : s.owed = s.laid.length := by
      unfold Firing.owed
      rw [hnone (s, e) List.mem_cons_self, Bool.toNat_false, Nat.zero_add]
    have hafter : e.after.stack = s.before.stack := by
      rw [howed, htop, hlaid, hplain]
      exact List.drop_left
    obtain ⟨hrest, hpairs⟩ := ih hafter fun pair hpair => hnone pair (List.mem_cons_of_mem _ hpair)
    exact ⟨hrest, List.forall_mem_cons.mpr ⟨⟨htop, hafter⟩, hpairs⟩⟩

/-- Where nothing was laid, nothing is taken. -/
theorem idle (h : Rounds high top pairs low rest)
    (hnone : ∀ pair ∈ pairs, pair.1.call.rule.capturesNode = false ∧ pair.1.laid = []) :
    low = high ∧ rest = top ∧ ∀ pair ∈ pairs, pair.2.after.stack = pair.2.before.stack := by
  induction h with
  | done => exact ⟨rfl, rfl, List.forall_mem_nil _⟩
  | @turn s e pairs low rest _ hlaid howed _ ih =>
    obtain ⟨hcaptures, hnothing⟩ := hnone (s, e) List.mem_cons_self
    have hbefore : s.after.stack = s.before.stack := by rw [hlaid, hnothing, List.nil_append]
    have hafter : e.after.stack = e.before.stack := by
      rw [howed]
      unfold Firing.owed
      rw [hcaptures, hnothing]
      rfl
    obtain ⟨hlow, hrest, hpairs⟩ := ih fun pair hpair => hnone pair (List.mem_cons_of_mem _ hpair)
    exact ⟨hlow.trans hbefore.symm, hrest.trans hafter,
      List.forall_mem_cons.mpr ⟨hafter, hpairs⟩⟩

end Rounds

/-- The rules of a list start from the first to the last and end from the last to the first. -/
theorem rounds_of_called {refs : List (RuleRef Empty)} {uri name uri' name' : String}
    {attrs : Attributes} {b o m b' : Binder Empty} {starting ending : List (Firing Empty)}
    (hstarts : Called .none (.start uri name attrs) refs b starting o)
    (hends : Called .none (.close uri' name') refs.reverse m ending b')
    (hflags : m.flags = o.flags) :
    Rounds o.stack m.stack (starting.reverse.zip ending) b.stack b'.stack := by
  induction refs using List.reverseRecOn generalizing o m starting ending with
  | nil =>
    cases hstarts
    cases hends
    exact .done _ _
  | append_singleton front ref ih =>
    obtain ⟨o₁, ahead, last, rfl, hfront, hlast⟩ := hstarts.split
    cases hlast with
    | cons hstart hnil =>
      cases hnil
      rw [List.reverse_append] at hends
      cases hends with
      | @cons _ _ _ m₁ _ behind hend hrest =>
        rw [RuleRef.fire_standard] at hstart hend
        have hbefore := o₁.shelf_recordCall .none (.start uri name attrs) ref
        have hfound := m.shelf_recordCall .none (.close uri' name') ref
        generalize o₁.recordCall .none (.start uri name attrs) ref = s at hstart hbefore ⊢
        generalize m.recordCall .none (.close uri' name') ref = e at hend hfound ⊢
        have hsame : e.flags = o.flags := (congrArg Prod.snd hfound).trans hflags
        obtain ⟨laid, hstack, hnode, htaken, hleft⟩ := StandardRule.exists_laid hstart hend hsame
        have hrounds := ih hfront hrest (hleft.trans (congrArg Prod.snd hbefore))
        have hbelow : o₁.stack = s.stack := (congrArg Prod.fst hbefore).symm
        have habove : m.stack = e.stack := (congrArg Prod.fst hfound).symm
        have hlaid : Firing.laid ⟨⟨ref, .start uri name attrs⟩, s, o⟩ = laid :=
          Firing.laid_eq hstack
        rw [hbelow] at hrounds
        rw [habove, List.reverse_append, List.reverse_singleton, List.singleton_append,
          List.zip_cons_cons]
        refine .turn (s := ⟨⟨ref, .start uri name attrs⟩, s, o⟩)
          (e := ⟨⟨ref, .close uri' name'⟩, e, m₁⟩) ?_ ?_ ?_ hrounds
        · rw [hlaid]
          exact hnode
        · rw [hlaid]
          exact hstack
        · unfold Firing.owed
          rw [hlaid]
          exact htaken

theorem RuleRef.capturesNode_eq (ref : RuleRef Empty) :
    ref.capturesNode = ref.nodeRule?.isSome := by
  obtain ⟨id, rule | rule⟩ := ref
  · cases rule <;> rfl
  · cases rule

/-- The end of a rule finds on top what it is meant to take, and takes it: the node, if its rule
captures the element, and otherwise what its rule laid, if it laid anything. -/
def TakesOwn (node : Value) (pair : Firing Empty × Firing Empty) : Prop :=
  if pair.1.call.rule.capturesNode then
    pair.2.before.stack = node :: pair.1.before.stack ∧ pair.2.after.stack = pair.1.before.stack
  else if pair.1.laid = [] then pair.2.after.stack = pair.2.before.stack
  else pair.2.before.stack = pair.1.after.stack ∧ pair.2.after.stack = pair.1.before.stack

/-- With a node above all that was laid, every end takes its own if one rule alone captures and
nothing was laid behind it. -/
theorem Rounds.takesOwn {node : Value} {high low rest : List Value} {own : Firing Empty × Firing Empty}
    {later sooner : List (Firing Empty × Firing Empty)}
    (h : Rounds high (node :: high) (later ++ own :: sooner) low rest)
    (hown : own.1.call.rule.capturesNode = true)
    (hothers : ∀ pair ∈ later ++ sooner, pair.1.call.rule.capturesNode = false)
    (hlater : ∀ pair ∈ later, pair.1.laid = []) :
    ∀ pair ∈ later ++ own :: sooner, TakesOwn node pair := by
  obtain ⟨m, t, hfront, hback⟩ := h.split
  have hidle := hfront.idle fun pair hpair =>
    ⟨hothers pair (List.mem_append_left _ hpair), hlater pair hpair⟩
  obtain ⟨rfl, rfl, hlater'⟩ := hidle
  generalize htop : node :: m = top at hback
  cases hback with
  | @turn s e _ _ _ hnode hlaid howed hrest =>
    have hbelow : s.after.stack = s.before.stack := by rw [hlaid, hnode hown, List.nil_append]
    have hafter : e.after.stack = s.before.stack := by
      unfold Firing.owed at howed
      rw [howed, ← htop, hown, hnode hown, hbelow]
      rfl
    have hsooner := (hrest.level hafter fun pair hpair =>
      hothers pair (List.mem_append_right _ hpair)).2
    intro pair hpair
    unfold TakesOwn
    obtain hpair | hpair := List.mem_append.mp hpair
    · rw [hothers pair (List.mem_append_left _ hpair), if_neg Bool.false_ne_true,
        if_pos (hlater pair hpair)]
      exact hlater' pair hpair
    · obtain rfl | hpair := List.mem_cons.mp hpair
      · rw [if_pos hown]
        exact ⟨htop.symm.trans (congrArg (node :: ·) hbelow), hafter⟩
      · obtain ⟨hfinds, hleaves⟩ := hsooner pair hpair
        rw [hothers pair (List.mem_append_right _ hpair), if_neg Bool.false_ne_true]
        split
        · next hnothing =>
          have hsame := (hrest.mem hpair).1
          rw [hnothing, List.nil_append] at hsame
          rw [hleaves, hfinds, hsame]
        · exact ⟨hfinds, hleaves⟩

/-! ### Elements that become nodes -/

namespace Passage

variable {tag : StartTag} {inner : Content} {closing : EndTag} {b b' : Binder Empty}

/-- The calls of each rule at the start tag and at the end tag, those of the last rule first. -/
def pairs (p : Passage .none tag inner closing b b') : List (Firing Empty × Firing Empty) :=
  p.starting.reverse.zip p.ending

variable (p : Passage .none tag inner closing b b')

theorem map_rule_starting : p.starting.map (·.call.rule) = p.found := by
  have hcalls := congrArg (List.map Call.rule) p.starts.map_call
  rw [List.map_map, List.map_map] at hcalls
  exact hcalls.trans (List.map_id _)

theorem map_rule_ending : p.ending.map (·.call.rule) = p.found.reverse := by
  have hcalls := congrArg (List.map Call.rule) p.ends.map_call
  rw [List.map_map, List.map_map] at hcalls
  exact hcalls.trans (List.map_id _)

theorem length_starting : p.starting.reverse.length = p.ending.length := by
  have hstarting := congrArg List.length p.map_rule_starting
  have hending := congrArg List.length p.map_rule_ending
  rw [List.length_map] at hstarting hending
  rw [List.length_reverse] at hending ⊢
  rw [hstarting, hending]

theorem map_rule_pairs : p.pairs.map (·.1.call.rule) = p.found.reverse := by
  have hfst : p.pairs.map Prod.fst = p.starting.reverse :=
    List.map_fst_zip (Nat.le_of_eq p.length_starting)
  rw [← p.map_rule_starting, ← List.map_reverse, ← hfst, List.map_map]
  rfl

theorem map_rule_pairs_ending : p.pairs.map (·.2.call.rule) = p.found.reverse := by
  have hsnd : p.pairs.map Prod.snd = p.ending :=
    List.map_snd_zip (Nat.le_of_eq p.length_starting.symm)
  rw [← p.map_rule_ending, ← hsnd, List.map_map]
  rfl

/-- Of the rules that capture the element the last one leaves its node. -/
theorem capture_opened {fragment : Bool}
    (h : (p.found.filterMap RuleRef.nodeRule?).getLast? = some fragment) :
    p.opened.capture = some
      { root := capturedNode fragment tag.uri tag.name (p.entry.expandAttributes tag.attrs) [] } := by
  have hthreshold := callRules_threshold Extension.steady_none (callRules_eq_ok.mpr ⟨_, p.starts⟩)
  rw [foldl_started, h] at hthreshold
  exact congrArg Threshold.capture hthreshold

/-- At the end tag the node is put above all that the starts laid. -/
theorem shelf_told {own : Capture} (h : p.opened.capture = some own) :
    p.told.shelf = (.node (own.take inner).finish :: p.opened.stack, p.opened.flags) := by
  obtain ⟨-, hfilled⟩ := p.content.captured h
  have hcapture : p.filled.capture = some (own.take inner) := congrArg Binder.capture hfilled
  have hstack : p.filled.stack = p.opened.stack := by
    have hunread := congrArg Binder.stack hfilled
    exact hunread
  have hflags : p.filled.flags = p.opened.flags := by
    have hunread := congrArg Binder.flags hfilled
    exact hunread
  have haccount := (p.filled.account_closing b.matched).trans
    (Binder.account_endCapture_of_some hcapture)
  have hclosing : (p.filled.closing b.matched).shelf =
      (.node (own.take inner).finish :: p.filled.stack, p.filled.flags) :=
    congrArg (fun a : Account Empty =>
      (a.objects, fun number => a.named (StandardRule.createdFlags number))) haccount
  have htold : p.told.shelf = (p.filled.closing b.matched).shelf :=
    p.bodies.keeps (fun ref m m' hfire => StandardRule.shelf_body (ref.fire_standard _ ▸ hfire))
      fun ref m => m.shelf_recordCall .none _ ref
  rw [htold, hclosing, hstack, hflags]

theorem stack_opening : (p.entry.opened .none tag p.found).stack = b.stack := by
  have hopened := congrArg Account.objects (p.entry.account_opened (x := .none) tag p.found)
  have hentry := congrArg Binder.stack p.entry_unread
  exact hopened.trans hentry

theorem stack_ended : b'.stack = p.ended.stack := by
  have hleave := congrArg Account.objects p.ended.account_leave
  exact (congrArg Binder.stack p.leave_eq).trans hleave

/-- What becomes of the node of an element with a rule that captures it, and of the objects that the
rules of the element laid. The node holds the content and is put on top of the objects, the latest of
which is the highest. The ends take from the top what they are owed, so the stack below loses one
object for each rule that captures but the last. If only one rule captures and nothing was laid
behind it, every end takes its own. -/
def TakesNode : Prop :=
  p.pairs.map (·.1.call.rule) = p.found.reverse ∧ p.pairs.map (·.2.call.rule) = p.found.reverse ∧
  ∀ fragment, (p.found.filterMap RuleRef.nodeRule?).getLast? = some fragment →
    ∃ children : List Node,
      let node : Value := .node
        (capturedNode fragment tag.uri tag.name (p.entry.expandAttributes tag.attrs) children)
      Node.marksOfAll children = mergeTexts (inner.events.map DocumentEvent.mark) ∧
      p.told.stack = node :: (p.pairs.flatMap (·.1.laid) ++ b.stack) ∧
      (∀ pair ∈ p.pairs, pair.1.after.stack = pair.1.laid ++ pair.1.before.stack ∧
        pair.2.after.stack = pair.2.before.stack.drop pair.1.owed) ∧
      b'.stack = b.stack.drop (p.found.countP RuleRef.capturesNode - 1) ∧
      ∀ later own sooner, p.pairs = later ++ own :: sooner →
        own.1.call.rule.capturesNode = true →
        (∀ pair ∈ later ++ sooner, pair.1.call.rule.capturesNode = false) →
        (∀ pair ∈ later, pair.1.laid = []) → ∀ pair ∈ p.pairs, TakesOwn node pair

/-- A list with a last node has a rule that captures. -/
theorem countP_capturesNode_pos {refs : List (RuleRef Empty)} {fragment : Bool}
    (h : (refs.filterMap RuleRef.nodeRule?).getLast? = some fragment) :
    0 < refs.countP RuleRef.capturesNode := by
  obtain ⟨ref, hmem, hnode⟩ := List.mem_filterMap.mp (List.mem_of_getLast? h)
  refine List.countP_pos_iff.mpr ⟨ref, hmem, ?_⟩
  rw [ref.capturesNode_eq, hnode]
  rfl

theorem takesNode : p.TakesNode := by
  refine ⟨p.map_rule_pairs, p.map_rule_pairs_ending, fun fragment hfragment => ?_⟩
  have hcapture := p.capture_opened hfragment
  have hnode := Capture.finish_take (capturedNode fragment tag.uri tag.name
    (p.entry.expandAttributes tag.attrs) []) inner
  rw [withChildren_capturedNode, children_capturedNode] at hnode
  have htold := p.shelf_told hcapture
  rw [hnode] at htold
  have hrounds : Rounds p.opened.stack p.told.stack p.pairs
      (p.entry.opened .none tag p.found).stack p.ended.stack :=
    rounds_of_called (m := p.told.resumeText) p.starts p.ends (congrArg Prod.snd htold)
  have hstack : p.told.stack = .node (capturedNode fragment tag.uri tag.name
      (p.entry.expandAttributes tag.attrs) (inner.pour [])) :: p.opened.stack :=
    congrArg Prod.fst htold
  rw [hstack, p.stack_opening, ← p.stack_ended] at hrounds
  obtain ⟨hhigh, hrest⟩ := hrounds.total
  have hnone : Node.TidyAll [] := trivial
  refine ⟨inner.pour [], ?_, ?_, fun pair hpair => hrounds.mem hpair, ?_, ?_⟩
  · rw [← Node.mergeTexts_marksOfAll _ (inner.tidyAll_pour hnone), inner.mergeTexts_pour]
    rfl
  · rw [← hhigh]
    exact hstack
  · have hcount : p.pairs.countP (·.1.call.rule.capturesNode) =
        p.found.countP RuleRef.capturesNode := by
      rw [← List.countP_reverse (l := p.found), ← p.map_rule_pairs, List.countP_map]
      rfl
    obtain ⟨others, hothers⟩ := Nat.exists_eq_add_one.mpr (countP_capturesNode_pos hfragment)
    rw [hrest, hhigh, hcount, hothers, Nat.add_sub_cancel, Nat.add_right_comm,
      List.drop_succ_cons, Nat.add_comm, ← List.drop_drop, List.drop_left]
  · intro later own sooner hpairs hown hothers hlater
    rw [hpairs] at hrounds ⊢
    exact hrounds.takesOwn hown hothers hlater

end Passage

/-- **What the ends of an element take away.** Of an element that gets through with everything inside
it, a rule that captures it alone takes its own node and every other rule what it laid, if nothing
was laid behind the rule that captures. In general the ends take from the top what their rules are
owed: the node first, then the objects of the element, the latest first, and then objects from below,
one for each rule that captures but the last. -/
theorem node_taking_law {earlier later : List DocumentEvent} {tag : StartTag} {inner : Content}
    {closing : EndTag} {b b' : Binder Empty} {fs : List (Firing Empty)}
    (h : Delivered .none (earlier ++ .start tag :: (inner.events ++ .close closing :: later)) b fs
      b') :
    ∃ m m' ahead behind, Delivered .none earlier b ahead m ∧ Delivered .none later m' behind b' ∧
      (m.capture.isSome = true → fs = ahead ++ behind) ∧
      (m.capture = none → ∃ p : Passage .none tag inner closing m m',
        fs = ahead ++ p.firings ++ behind ∧ p.TakesNode) := by
  obtain ⟨m, m', ahead, behind, hearlier, hlater, hinside, hpassage⟩ :=
    h.exists_passage Extension.quiet_none
  refine ⟨m, m', ahead, behind, hearlier, hlater, hinside, fun hcapture => ?_⟩
  obtain ⟨p, hfirings⟩ := hpassage hcapture
  exact ⟨p, hfirings, p.takesNode⟩

/-- An element with an object and, behind it, a node. -/
theorem node_taking_law_of_an_object :
    let rules : List (RuleRef Empty) :=
      [⟨0, .standard (.factory .elementBean false)⟩, ⟨1, .standard (.nodeCreate false)⟩]
    let b : Binder Empty := { matcher := .foreign (.always rules) [], stack := [.null] }
    let tag : StartTag := ⟨"", "a", "a", []⟩
    let inner : Content := .text "t" .done
    ∃ fs b' m m' ahead behind,
      Delivered .none ([] ++ .start tag :: (inner.events ++ [.close ⟨"", "a", "a"⟩])) b fs b' ∧
      Delivered .none [] b ahead m ∧ Delivered .none [] m' behind b' ∧
      (m.capture.isSome = true → fs = ahead ++ behind) ∧
      (m.capture = none → ∃ p : Passage .none tag inner ⟨"", "a", "a"⟩ m m',
        fs = ahead ++ p.firings ++ behind ∧ p.TakesNode) := by
  intro rules b tag inner
  have hanswers : ((deliverAll .none
      ([] ++ .start tag :: (inner.events ++ [.close ⟨"", "a", "a"⟩]))).answer? b).isSome := by
    decide +kernel
  obtain ⟨_, hanswer⟩ := Option.isSome_iff_exists.mp hanswers
  obtain ⟨fs, hdelivered⟩ := Delivered.of_deliverAll (Action.eq_ok_of_answer? hanswer)
  obtain ⟨m, m', ahead, behind, hlaw⟩ := node_taking_law hdelivered
  exact ⟨fs, _, m, m', ahead, behind, hdelivered, hlaw⟩

/-- Of an object behind the node it is the object's end that takes the node. The object stays, and
the end of the rule that captures takes it. -/
theorem node_goes_with_the_wrong_end :
    let node : RuleRef Empty := ⟨0, .standard (.nodeCreate false)⟩
    let object : RuleRef Empty := ⟨1, .standard (.factory .elementBean false)⟩
    let rules := [node, object]
    let b : Binder Empty := { matcher := .foreign (.always rules) [] }
    let opened := (deliver .none (.start ⟨"", "a", "a", []⟩)).after b
    let told := ((callRules .none (.body "" "a" "") rules).after (opened.closing [])).resumeText
    let between := (callRules .none (.close "" "a") [object]).after told
    let ended := (callRules .none (.close "" "a") [node]).after between
    ((deliverAll .none [.start ⟨"", "a", "a", []⟩, .close ⟨"", "a", "a"⟩]).answer? b).isSome ∧
      told.stack.map told.kindOf = ["node", "a"] ∧ between.stack.map between.kindOf = ["a"] ∧
      ended.stack.isEmpty := by
  decide +kernel

end XmlBinding
