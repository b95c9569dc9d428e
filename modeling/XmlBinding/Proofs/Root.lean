import XmlBinding.Proofs.Account
import XmlBinding.Proofs.Finish
import XmlBinding.Proofs.Trace.Held

/-!
# Where the root comes from

A value that is put on the empty stack of objects becomes the root, and nothing else changes the root
while a document is read. Standard rules move at most one value each time they are called, and between
two calls the binder puts at most one captured node on the stack. So the values that are pushed in the
course of a document can be told from what its calls find and leave, and the root is the last of them
that found the stack empty: the first of all, unless the stack runs empty on the way and is filled
again.
-/
namespace XmlBinding

variable {κ ε α : Type}

/-! ### Piles -/

/-- The objects and the root. -/
structure Pile where
  stack : Stack Value
  root : Option Value

namespace Pile

def push (p : Pile) (v : Value) : Pile := ⟨v :: p.stack, if p.stack.isEmpty then some v else p.root⟩

/-- The pile without its top, if it has one. -/
def pop (p : Pile) : Pile := { p with stack := p.stack.tail }

end Pile

inductive Move
  | push (v : Value)
  | pop

/-- Moves that lead from one pile to another. Nothing is popped off an empty stack. -/
inductive Moves : Pile → List Move → Pile → Prop
  | done (p : Pile) : Moves p [] p
  | push {p q : Pile} {v : Value} {ms : List Move} (h : Moves (p.push v) ms q) :
      Moves p (.push v :: ms) q
  | pop {p q : Pile} {ms : List Move} (hp : p.stack ≠ []) (h : Moves p.pop ms q) :
      Moves p (.pop :: ms) q

/-- The values that are pushed, each with the number of objects that it was put on. -/
def pushesOn (height : Nat) : List Move → List (Value × Nat)
  | [] => []
  | .push v :: ms => (v, height) :: pushesOn (height + 1) ms
  | .pop :: ms => pushesOn (height - 1) ms

/-- The last value that was put on no object. -/
def lastOnGround (pushes : List (Value × Nat)) : Option Value :=
  ((pushes.filter (·.2 = 0)).getLast?).map (·.1)

theorem lastOnGround_cons (v : Value) (height : Nat) (pushes : List (Value × Nat)) :
    lastOnGround ((v, height) :: pushes) =
      (lastOnGround pushes).or (if height = 0 then some v else none) := by
  unfold lastOnGround
  by_cases h : height = 0
  · rw [if_pos h, List.filter_cons_of_pos (by simpa using h), List.getLast?_cons]
    cases (pushes.filter (·.2 = 0)).getLast? <;> rfl
  · rw [if_neg h, List.filter_cons_of_neg (by simpa using h), Option.or_none]

namespace Moves

variable {p q r : Pile} {ms ns : List Move}

theorem append (h : Moves p ms q) (h' : Moves q ns r) : Moves p (ms ++ ns) r := by
  induction h with
  | done => exact h'
  | push _ ih => exact .push (ih h')
  | pop hp _ ih => exact .pop hp (ih h')

/-- The root is the last value that was put on the empty stack, or it is what it was. -/
theorem root_eq (h : Moves p ms q) :
    q.root = (lastOnGround (pushesOn p.stack.length ms)).or p.root := by
  induction h with
  | done p => rfl
  | @push p q v ms _ ih =>
    have hheight : (p.push v).stack.length = p.stack.length + 1 := rfl
    rw [ih, hheight, pushesOn, lastOnGround_cons, Option.or_assoc]
    congr 1
    unfold Pile.push
    cases p.stack <;> rfl
  | @pop p q ms hp _ ih =>
    have hheight : p.pop.stack.length = p.stack.length - 1 := List.length_tail
    rw [ih, hheight]
    rfl

/-- On an empty stack nothing can be done before a value is pushed. -/
theorem first_on_ground (h : Moves p ms q) (hp : p.stack = []) {first : Value × Nat}
    {later : List (Value × Nat)} (hpushes : pushesOn 0 ms = first :: later) : first.2 = 0 := by
  cases h with
  | done => cases hpushes
  | push _ => cases hpushes; rfl
  | pop hne _ => exact absurd hp hne

end Moves

/-- The root is the first value pushed, as long as no later one finds the stack empty. -/
theorem lastOnGround_eq_first {first : Value × Nat} {later : List (Value × Nat)}
    (hfirst : first.2 = 0) (hlater : ∀ push ∈ later, push.2 ≠ 0) :
    lastOnGround (first :: later) = some first.1 := by
  have hnone : later.filter (·.2 = 0) = [] := List.filter_eq_nil_iff.mpr fun push hpush => by
    simpa using hlater push hpush
  have hlast : lastOnGround later = none := by
    unfold lastOnGround
    rw [hnone]
    rfl
  rw [lastOnGround_cons, hlast, if_pos hfirst]
  rfl

/-- One move or none. -/
def Shifts (p q : Pile) : Prop := ∃ ms, ms.length ≤ 1 ∧ Moves p ms q

theorem Shifts.refl (p : Pile) : Shifts p p := ⟨[], Nat.zero_le _, .done p⟩

theorem Shifts.push (p : Pile) (v : Value) : Shifts p (p.push v) :=
  ⟨[.push v], Nat.le_refl _, .push (.done _)⟩

theorem Shifts.pop (p : Pile) : Shifts p p.pop := by
  by_cases hp : p.stack = []
  · have hsame : p.pop = p := by
      unfold Pile.pop
      rw [hp, List.tail_nil, ← hp]
    rw [hsame]
    exact .refl p
  · exact ⟨[.pop], Nat.le_refl _, .pop hp (.done _)⟩

/-! ### Calls of standard rules -/

namespace Binder

def pile (b : Binder κ) : Pile := ⟨b.stack, b.root⟩

theorem pile_note (b : Binder κ) (level : Level) (channel : Channel) (text : String) :
    (b.note level channel text).pile = b.pile := by
  rw [note_eq]
  rfl

theorem pile_push (b : Binder κ) (v : Value) : (b.push v).pile = b.pile.push v := by
  rw [push_eq]
  rfl

theorem pile_pop (b : Binder κ) : b.pop.2.pile = b.pile.pop := by
  unfold pop
  split
  · next hempty =>
    rw [pile_note]
    unfold pile Pile.pop
    rw [hempty]
    rfl
  · next hstack =>
    unfold pile Pile.pop
    rw [hstack]
    rfl

end Binder

namespace StandardRule

open XmlBinding.Action Binder

/-- Whether calls of the rule put objects on the stack and take them off. -/
def movesObjects : StandardRule → Bool
  | .objectCreate .. | .factoryCreate .. | .nodeCreate _ => true
  | _ => false

theorem pile_of_bare {act : Action κ ε α} (h : act.Keeps bare) : act.Keeps pile :=
  h.of_view pile fun _ => rfl

theorem pile_popNamed (name : StackName) :
    (popNamed name : Action κ RuleError Value).Keeps pile := by
  refine keeps_get_bind fun b => ?_
  unfold Binder.popNamed
  split <;> rfl

/-- What shows neither frames nor the matcher nor the stacks on which a rule keeps texts. -/
structure Overlooks (view : Binder κ → α) (rule : StandardRule) : Prop where
  bare : ∀ b, view b = view b.bare
  frame : ∀ b, view b = view b.unframed
  matcher : ∀ b matcher nextRule, view { b with matcher, nextRule } = view b
  text : ∀ (b : Binder κ) (own : StackName) (named : NamedStacks Value),
    rule.textStack? = some own → (∀ other ≠ own, named.items other = b.named.items other) →
      view { b with named } = view b

namespace Overlooks

variable {γ : Type} {view : Binder κ → α} {rule : StandardRule}

theorem keeps_of_bare (h : Overlooks view rule) {act : Action κ RuleError γ}
    (hact : act.Keeps Binder.bare) : act.Keeps view := hact.of_view view h.bare

theorem keeps_of_frame (h : Overlooks view rule) {act : Action κ RuleError γ}
    (hact : act.Keeps unframed) : act.Keeps view := hact.of_view view h.frame

/-- A rule may put a text on its own stack. -/
theorem keeps_keepText (h : Overlooks view rule) {own : StackName}
    (hown : rule.textStack? = some own) (v : Value) :
    (modify (·.pushNamed own v) : Action κ RuleError PUnit).Keeps view :=
  keeps_modify fun b => h.text b own _ hown fun other hne =>
    (b.named.items_push own other v).trans (if_neg hne)

/-- A rule may take a text from its own stack. -/
theorem keeps_takeText (h : Overlooks view rule) {own : StackName}
    (hown : rule.textStack? = some own) : (popNamed own : Action κ RuleError Value).Keeps view := by
  refine keeps_get_bind fun b => ?_
  unfold Binder.popNamed
  cases hpop : b.named.pop? own with
  | none => rfl
  | some r => exact h.text b own r.2 hown fun other => (NamedStacks.items_pop hpop other).2

end Overlooks

section

variable {view : Binder κ → α}

theorem keeps_fire_textProperty {property : Option String} {number : Nat}
    (h : Overlooks view (.textProperty property number)) (cb : Callback) :
    ((textProperty property number).fire cb : Action κ RuleError Unit).Keeps view := by
  cases cb with
  | body uri name text => exact h.keeps_keepText rfl _
  | close uri name =>
    exact (h.keeps_takeText rfl).bind fun _ =>
      h.keeps_of_bare ((bare_top _).bind fun _ => bare_setProperty ..)
  | _ => exact keeps_pure _

theorem keeps_fire_setNested {config : NestedConfig} (h : Overlooks view (.setNested config))
    (cb : Callback) : ((setNested config).fire cb : Action κ RuleError Unit).Keeps view := by
  cases cb with
  | start uri name attrs => exact keeps_modify fun b => h.matcher b _ _
  | body uri name text =>
    exact keeps_undecorateChildren h.bare fun b matcher => h.matcher b matcher b.nextRule
  | _ => exact keeps_pure _

theorem keeps_fire_callMethod {method : String} {arguments : Arguments} {types : List ScalarType}
    {offset : Int} {number : Nat}
    (h : Overlooks view (.callMethod method arguments types offset number)) (cb : Callback) :
    ((callMethod method arguments types offset number).fire cb :
      Action κ RuleError Unit).Keeps view := by
  cases arguments with
  | frame size =>
    cases cb with
    | start uri name attrs => exact h.keeps_of_frame (unframed_openFrame size)
    | close uri name => exact h.keeps_of_frame (unframed_callDeferred ..)
    | _ => exact keeps_pure _
  | bodyText =>
    cases cb with
    | body uri name text => exact h.keeps_keepText rfl _
    | close uri name =>
      exact keeps_callDeferred h.bare _ _ _ ((h.keeps_takeText rfl).bind fun _ => keeps_pure _)
    | _ => exact keeps_pure _
  | nothing =>
    cases cb with
    | close uri name => exact keeps_callDeferred h.bare _ _ _ (keeps_pure _)
    | _ => exact keeps_pure _

theorem keeps_fire_callParam {index number : Nat} {source : ParamSource}
    (h : Overlooks view (.callParam index source number)) (cb : Callback) :
    ((callParam index source number).fire cb : Action κ RuleError Unit).Keeps view := by
  cases cb with
  | start uri name attrs => exact h.keeps_of_frame (unframed_fillParameter ..)
  | body uri name text =>
    cases source
    case body => exact h.keeps_keepText rfl _
    all_goals exact keeps_pure _
  | close uri name =>
    cases source
    case body =>
      exact (h.keeps_takeText rfl).bind fun _ => h.keeps_of_frame (unframed_setParam ..)
    all_goals exact keeps_pure _
  | finish => exact keeps_pure _

theorem keeps_fire_objectParam {index : Nat} {v : Value} {attr : Option String}
    (h : Overlooks view (.objectParam index v attr)) (cb : Callback) :
    ((objectParam index v attr).fire cb : Action κ RuleError Unit).Keeps view := by
  cases cb with
  | start uri name attrs =>
    cases attr with
    | none => exact h.keeps_of_frame (unframed_setParam ..)
    | some wanted =>
      simp only [fire, onStart]
      split
      · exact h.keeps_of_frame (unframed_setParam ..)
      · exact keeps_pure _
  | _ => exact keeps_pure _

/-- Every rule that moves no objects leaves alone what overlooks its own work. -/
theorem keeps_fire_unmoved {rule : StandardRule} (h : Overlooks view rule)
    (hunmoved : rule.movesObjects = false) (cb : Callback) :
    (rule.fire cb : Action κ RuleError Unit).Keeps view := by
  cases rule with
  | objectCreate | factoryCreate | nodeCreate => cases hunmoved
  | textProperty => exact keeps_fire_textProperty h cb
  | setNested => exact keeps_fire_setNested h cb
  | callMethod => exact keeps_fire_callMethod h cb
  | callParam => exact keeps_fire_callParam h cb
  | objectParam => exact keeps_fire_objectParam h cb
  | setProperties =>
    cases cb with
    | start => exact h.keeps_of_bare (bare_setFromAttributes ..)
    | _ => exact keeps_pure _
  | setProperty =>
    cases cb with
    | start => exact h.keeps_of_bare (bare_setNamedProperty ..)
    | _ => exact keeps_pure _
  | nestedChild =>
    cases cb with
    | body => exact h.keeps_of_bare (bare_setFromChild ..)
    | _ => exact keeps_pure _
  | pathParam =>
    cases cb with
    | start => exact h.keeps_of_frame (keeps_get.bind fun _ => unframed_setParam ..)
    | _ => exact keeps_pure _
  | link target method type atStart =>
    cases atStart <;> cases cb
    case false.close | true.start => exact h.keeps_of_bare (bare_makeLink ..)
    all_goals exact keeps_pure _
  | storeText =>
    cases cb with
    | body => exact h.keeps_of_bare (bare_storeNonBlank ..)
    | _ => exact keeps_pure _

end

theorem keeps_pile_fire {rule : StandardRule} (h : rule.movesObjects = false) (cb : Callback) :
    (rule.fire cb : Action κ RuleError Unit).Keeps pile :=
  keeps_fire_unmoved
    ⟨fun _ => rfl, fun _ => rfl, fun _ _ _ => rfl, fun _ _ _ _ _ => rfl⟩ h cb

/-- However it ends, an action has made one move or none. -/
def Stirs (act : Action κ RuleError Unit) (b : Binder κ) : Prop :=
  act.Meets b (fun _ b' => Shifts b.pile b'.pile) fun _ b' => Shifts b.pile b'.pile

theorem Stirs.shifts_after {act : Action κ RuleError Unit} {b : Binder κ} (h : Stirs act b) :
    Shifts b.pile (act.after b).pile := meets_after.mp h

theorem stirs_of_keeps {act : Action κ RuleError Unit} (h : act.Keeps pile) (b : Binder κ) :
    Stirs act b := by
  have hshifts : ∀ b' : Binder κ, b'.pile = b.pile → Shifts b.pile b'.pile := fun b' hb' => by
    rw [hb']
    exact .refl b.pile
  exact (keepsAt_iff.mp (h.keepsAt b)).mono (fun _ => hshifts) fun _ => hshifts

theorem stirs_create (className attr : Option String) (attrs : Attributes) (b : Binder κ) :
    Stirs (create className attr attrs) b := by
  unfold Stirs create
  simp only [meets_bind, meets_get, meets_lift]
  refine ⟨fun name _ => ?_, fun _ _ => .refl b.pile⟩
  split
  · exact .refl b.pile
  · simp only [meets_bind, meets_set, meets_note, meets_push]
    rw [pile_push, pile_note]
    exact .push b.pile _

theorem stirs_produceObject (source : FactorySource) (ignoreFailure : Bool) (created : StackName)
    (attrs : Attributes) (b : Binder κ) :
    Stirs (produceObject source ignoreFailure created attrs) b := by
  unfold Stirs produceObject
  simp only [meets_bind, meets_get]
  obtain ⟨cause | v, heap⟩ := produce b source attrs
  · cases ignoreFailure
    · exact .refl b.pile
    · have hpile : ((Binder.note { b with heap } .info .rules
          ("[FactoryCreateRule] creation failed at '" ++ b.path ++ "', ignored: " ++
            cause.message)).pushNamed created (.bool false)).pile = b.pile := pile_note ..
      change Shifts b.pile (Binder.pile _)
      rw [hpile]
      exact .refl b.pile
  · have hpush : (Binder.push { b with heap } v).pile = b.pile.push v := pile_push ..
    have hshifts : Shifts b.pile (Binder.push { b with heap } v).pile := by
      rw [hpush]
      exact .push b.pile v
    cases ignoreFailure <;> exact hshifts

theorem stirs_discard_pop (b : Binder κ) : Stirs (discard pop) b := by
  unfold Stirs
  rw [meets_discard]
  change Shifts b.pile b.pop.2.pile
  rw [pile_pop]
  exact .pop b.pile

theorem stirs_dropProduct (ignoreFailure : Bool) (created : StackName) (b : Binder κ) :
    Stirs (dropProduct ignoreFailure created) b := by
  unfold Stirs dropProduct
  cases ignoreFailure with
  | false => exact stirs_discard_pop b
  | true =>
    rw [if_pos rfl, meets_bind]
    refine (keepsAt_iff.mp ((pile_popNamed created).keepsAt b)).mono (fun flag m hm => ?_)
      fun _ m hm => ?_
    · rw [← hm]
      split
      · exact stirs_of_keeps (pile_of_bare (bare_note_action ..)) m
      · exact stirs_discard_pop m
    · rw [hm]
      exact .refl b.pile

/-- A call of a standard rule makes one move or none, however it ends. -/
theorem stirs_fire (rule : StandardRule) (cb : Callback) (b : Binder κ) :
    Stirs (rule.fire cb) b := by
  cases rule with
  | objectCreate className attr =>
    cases cb with
    | start uri name attrs => exact stirs_create ..
    | close uri name => exact stirs_discard_pop b
    | _ => exact stirs_of_keeps (keeps_pure _) b
  | factoryCreate source ignoreFailure number =>
    cases cb with
    | start uri name attrs => exact stirs_produceObject ..
    | close uri name => exact stirs_dropProduct ..
    | _ => exact stirs_of_keeps (keeps_pure _) b
  | nodeCreate fragment =>
    cases cb with
    | start uri name attrs => exact stirs_of_keeps (keeps_modify fun _ => rfl) b
    | close uri name => exact stirs_discard_pop b
    | _ => exact stirs_of_keeps (keeps_pure _) b
  | _ => exact stirs_of_keeps (keeps_pile_fire rfl cb) b

end StandardRule

theorem RuleRef.shifts_fire {ref : RuleRef Empty} {cb : Callback} {b b' : Binder Empty}
    (h : ref.fire .none cb b = .ok () b') : Shifts b.pile b'.pile := by
  obtain ⟨id, rule | rule⟩ := ref
  · exact (Action.meets_of_ok h).mp (StandardRule.stirs_fire rule cb b)
  · cases rule

/-! ### Between calls -/

/-- What the binder does between two calls: it puts a node that is complete on the stack, or nothing.
Only a call can start the next node. -/
inductive Lull (b s : Binder κ) : Prop
  | quiet (hpile : s.pile = b.pile) (hcapture : b.capture = none → s.capture = none)
  | node (v : Value) (hpile : s.pile = b.pile.push v) (hbefore : b.capture ≠ none)
      (hafter : s.capture = none)

namespace Lull

variable {b m s : Binder κ}

theorem refl (b : Binder κ) : Lull b b := .quiet rfl id

theorem trans (h : Lull b m) (h' : Lull m s) : Lull b s := by
  cases h with
  | quiet hpile hcapture =>
    cases h' with
    | quiet hpile' hcapture' => exact .quiet (hpile'.trans hpile) (hcapture' ∘ hcapture)
    | node v hpile' hbefore hafter =>
      exact .node v (hpile'.trans (congrArg (·.push v) hpile)) (mt hcapture hbefore) hafter
  | node v hpile hbefore hafter =>
    cases h' with
    | quiet hpile' hcapture' => exact .node v (hpile'.trans hpile) hbefore (hcapture' hafter)
    | node _ _ hbefore' _ => exact absurd hafter hbefore'

theorem shifts (h : Lull b s) : Shifts b.pile s.pile := by
  cases h with
  | quiet hpile _ =>
    rw [hpile]
    exact .refl b.pile
  | node v hpile _ _ =>
    rw [hpile]
    exact .push b.pile v

theorem of_unread (h : s.unread = b.unread) : Lull b s := by
  have hpile := congrArg Binder.pile h
  exact .quiet hpile (congrArg Binder.capture h).trans

theorem of_recordCall (x : Extension κ) (cb : Callback) (ref : RuleRef κ) (b : Binder κ) :
    Lull b (b.recordCall x cb ref) := by
  rw [Binder.recordCall_eq]
  exact .quiet rfl id

theorem of_opened (x : Extension κ) (b : Binder κ) (tag : StartTag) (found : List (RuleRef κ)) :
    Lull b (b.opened x tag found) := by
  unfold Binder.opened Binder.noteRules Binder.enter
  exact .quiet (Binder.pile_note ..) (b.capture_enter tag.name).trans

theorem of_endCapture (b : Binder κ) : Lull b b.endCapture := by
  cases hcapture : b.capture with
  | none =>
    rw [Binder.endCapture_of_none hcapture]
    exact .refl b
  | some c =>
    have hend : b.endCapture = Binder.push { b with capture := none } (.node c.finish) := by
      unfold Binder.endCapture
      rw [hcapture]
    refine .node (.node c.finish) ?_ ?_ (congrArg Prod.snd b.course_endCapture)
    · rw [hend]
      exact Binder.pile_push ..
    · rw [hcapture]
      exact Option.some_ne_none c

theorem of_closing (b : Binder κ) (outer : List (List (RuleRef κ))) :
    Lull b (b.closing outer) :=
  (of_endCapture b).trans
    (.quiet (Binder.pile_note ..) fun _ => congrArg Prod.snd (b.course_closing outer))

theorem of_leave (b : Binder κ) : Lull b b.leave := by
  unfold Binder.leave
  split
  · exact .refl b
  · exact .quiet rfl id

theorem of_characters (b : Binder κ) (content : String) : Lull b (b.characters content) := by
  unfold Binder.characters
  split
  · next c hc => exact .quiet rfl fun hnone => nomatch hc.symm.trans hnone
  · exact .quiet rfl id

theorem of_atStart (b : Binder κ) (text : List Char) : Lull b (b.atStart text) :=
  .quiet (Binder.pile_note ..) (b.capture_atStart text).trans

/-- Inside a captured node only the node changes. -/
theorem of_inside {c : Capture} (hb : b.capture = some c) (capture : Option Capture) :
    Lull b { b with capture } :=
  .quiet rfl fun hnone => nomatch hb.symm.trans hnone

theorem of_noteLeftover (b : Binder κ) : Lull b b.noteLeftover := by
  unfold Binder.noteLeftover
  split
  · rw [Binder.note_eq]
    exact .quiet rfl id
  · exact .refl b

end Lull

/-! ### Traces -/

/-- Calls of which each makes one move or none, with lulls between them. -/
inductive Stirred : Binder κ → List (Firing κ) → Binder κ → Prop
  | done {b b' : Binder κ} (h : Lull b b') : Stirred b [] b'
  | call {b b' : Binder κ} {f : Firing κ} {fs : List (Firing κ)} (hlull : Lull b f.before)
      (hcall : Shifts f.before.pile f.after.pile) (hrest : Stirred f.after fs b') :
      Stirred b (f :: fs) b'

namespace Stirred

variable {b m b' : Binder κ} {fs gs : List (Firing κ)}

theorem lead (hlull : Lull b m) (h : Stirred m fs b') : Stirred b fs b' := by
  cases h with
  | done h => exact .done (hlull.trans h)
  | call hbefore hcall hrest => exact .call (hlull.trans hbefore) hcall hrest

theorem append (h : Stirred b fs m) (h' : Stirred m gs b') : Stirred b (fs ++ gs) b' := by
  induction h with
  | done hlull => exact h'.lead hlull
  | call hlull hcall _ ih => exact .call hlull hcall (ih h')

theorem trail (h : Stirred b fs m) (hlull : Lull m b') : Stirred b fs b' := by
  have happend := h.append (.done hlull)
  rwa [List.append_nil] at happend

end Stirred

theorem Called.stirred {cb : Callback} {refs : List (RuleRef Empty)} {b b' : Binder Empty}
    {fs : List (Firing Empty)} (h : Called .none cb refs b fs b') : Stirred b fs b' := by
  induction h with
  | nil b => exact .done (.refl b)
  | cons hfire _ ih => exact .call (.of_recordCall ..) (RuleRef.shifts_fire hfire) ih

theorem Answers.stirred {e : DocumentEvent} {b b' : Binder Empty} {fs : List (Firing Empty)}
    (h : Answers .none e b fs b') : Stirred b fs b' := by
  cases h with
  | text content => exact .done (.of_characters b content)
  | startInside tag hb | closeInside tag hb => exact .done (.of_inside hb _)
  | start _ _ hcalled => exact hcalled.stirred.lead (.of_opened ..)
  | @close _ _ m m' _ _ _ _ _ _ hbodies hends =>
    have hresumed : Lull m m.resumeText := .quiet rfl id
    exact (hbodies.stirred.lead (.of_closing ..)).append
      ((hends.stirred.lead hresumed).trail (.of_leave m'))

theorem Delivered.stirred {es : List DocumentEvent} {b b' : Binder Empty}
    {fs : List (Firing Empty)} (h : Delivered .none es b fs b') : Stirred b fs b' := by
  induction h with
  | done hb => exact .done (.of_unread hb)
  | step hs he _ ih => exact (he.stirred.lead (.of_unread hs)).append ih

/-- The moves of some calls and of the lulls between them, as the piles show them: one each or none. -/
inductive Tracked : Pile → List (Firing κ) → List Move → Pile → Prop
  | done {p q : Pile} {lull : List Move} (hlength : lull.length ≤ 1) (hlull : Moves p lull q) :
      Tracked p [] lull q
  | call {p q : Pile} {f : Firing κ} {fs : List (Firing κ)} {lull own later : List Move}
      (hlength : lull.length ≤ 1) (hlull : Moves p lull f.before.pile)
      (hlength' : own.length ≤ 1) (hown : Moves f.before.pile own f.after.pile)
      (hlater : Tracked f.after.pile fs later q) : Tracked p (f :: fs) (lull ++ own ++ later) q

theorem Tracked.moves {p q : Pile} {fs : List (Firing κ)} {ms : List Move}
    (h : Tracked p fs ms q) : Moves p ms q := by
  induction h with
  | done _ hlull => exact hlull
  | call _ hlull _ hown _ ih => exact (hlull.append hown).append ih

theorem Stirred.tracked {b b' : Binder κ} {fs : List (Firing κ)} (h : Stirred b fs b') :
    ∃ ms, Tracked b.pile fs ms b'.pile := by
  induction h with
  | done hlull =>
    obtain ⟨ms, hlength, hmoves⟩ := hlull.shifts
    exact ⟨ms, .done hlength hmoves⟩
  | call hlull hcall _ ih =>
    obtain ⟨ms, hlength, hmoves⟩ := hlull.shifts
    obtain ⟨own, hlength', hown⟩ := hcall
    obtain ⟨later, hlater⟩ := ih
    exact ⟨_, .call hlength hmoves hlength' hown hlater⟩

/-- The calls of a text that gets through, tracked from the pile in front of it to the one that is
forgotten with the document. -/
theorem Completes.tracked {text : String} {b b' : Binder Empty} {fs : List (Firing Empty)}
    (h : Completes .none text b fs b') :
    ∃ ms stack, Tracked b.pile fs ms ⟨stack, b'.root⟩ := by
  cases h with
  | @intro rs es m s reading finishing _ hread hfinish =>
    have hstirred := (hread.delivered.stirred.lead (.of_atStart b text.toList)).append
      (hfinish.stirred.lead (.of_noteLeftover m))
    obtain ⟨ms, hms⟩ := hstirred.tracked
    have hroot : s.closeDocument.root = s.root := congrArg Pile.root (Binder.pile_note ..)
    rw [hroot]
    exact ⟨ms, s.stack, hms⟩

/-- **The root of a document.** A document whose rules are standard rules and that gets through
answers the last value that its calls and captured nodes put on the empty stack. The first value of
all is put there, so it is the answer as long as no later one finds the stack empty. -/
theorem root_law {text : String} {b b' : Binder Empty} {root : Option Value}
    (hstack : b.stack = []) (h : parse .none text b = .ok root b') :
    root = b'.root ∧ ∃ fs ms stack, Completes .none text b fs b' ∧
      Tracked b.pile fs ms ⟨stack, root⟩ ∧ root = (lastOnGround (pushesOn 0 ms)).or b.root ∧
      ∀ first later, pushesOn 0 ms = first :: later →
        first.2 = 0 ∧ ((∀ push ∈ later, push.2 ≠ 0) → root = some first.1) := by
  obtain ⟨rfl, fs, hcompletes⟩ := completes_of_parse h
  obtain ⟨ms, stack, htracked⟩ := hcompletes.tracked
  have hroot := htracked.moves.root_eq
  have hheight : b.pile.stack.length = 0 := congrArg List.length hstack
  rw [hheight] at hroot
  refine ⟨rfl, fs, ms, stack, hcompletes, htracked, hroot, fun first later hpushes => ?_⟩
  have hfirst := htracked.moves.first_on_ground hstack hpushes
  refine ⟨hfirst, fun hlater => ?_⟩
  change b'.root = _ at hroot
  rw [hroot, hpushes, lastOnGround_eq_first hfirst hlater]
  rfl

/-- A document with one object, made below an element that makes none. -/
theorem root_law_of_one_object :
    let rule : RuleRef Empty := ⟨0, .standard (.factory .elementBean false)⟩
    let b : Binder Empty := { matcher := .plain (({} : Table _).register ['a', '/', 'b'] rule) }
    ∃ root b', b.stack = [] ∧ parse .none "<a><b/></a>" b = .ok root b' ∧
      root = b'.root ∧ ∃ fs ms stack, Completes .none "<a><b/></a>" b fs b' ∧
        Tracked b.pile fs ms ⟨stack, root⟩ ∧ root = (lastOnGround (pushesOn 0 ms)).or b.root ∧
        ∀ first later, pushesOn 0 ms = first :: later →
          first.2 = 0 ∧ ((∀ push ∈ later, push.2 ≠ 0) → root = some first.1) := by
  intro rule b
  have hanswers : ((parse .none "<a><b/></a>").answer? b).isSome := by decide +kernel
  obtain ⟨root, hroot⟩ := Option.isSome_iff_exists.mp hanswers
  have hparse := Action.eq_ok_of_answer? hroot
  exact ⟨root, _, rfl, hparse, root_law rfl hparse⟩

/-- The first of two objects is the root until the second one finds the stack empty. -/
theorem second_object_becomes_the_root :
    let first : Table (RuleRef Empty) := ({} : Table _).register ['a', '/', 'b']
      ⟨0, .standard (.factory .elementBean false)⟩
    let both := first.register ['a', '/', 'c'] ⟨1, .standard (.factory .elementBean false)⟩
    let b : Binder Empty := { matcher := .plain both }
    let text := "<a><b/><c/></a>"
    let front := (Markup.scan text.toList).take 2
    let read := Document.handleAll .none b.options.namespaceAware { rest := text.toList } [] front
    let m := read.after (b.atStart text.toList)
    let b' := (parse .none text).after b
    front.map (·.2) = [.start "a" [], .empty "b" []] ∧
      (read.answer? (b.atStart text.toList)).isSome ∧ ((parse .none text).answer? b).isSome ∧
      m.stack.isEmpty ∧ m.root.map m.kindOf = some "b" ∧ b'.root.map b'.kindOf = some "c" := by
  decide +kernel

end XmlBinding
