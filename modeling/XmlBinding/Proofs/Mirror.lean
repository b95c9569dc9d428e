import XmlBinding.Proofs.Balance
import XmlBinding.Proofs.Behind
import XmlBinding.Proofs.Parallel
import XmlBinding.Proofs.Spaces

/-!
# A binder and its mirror image

One document may be read by two binders that are set up alike, of which the second one holds objects
of documents before. What the first one does the second one does too, with its new objects behind
the old ones. `Mirrors` relates the two at any moment, and every step of a rule that both make keeps
them related.
-/
namespace XmlBinding

/-- What a binder is set up with, and no document changes. -/
structure Setup where
  options : Options
  substitutor : Option Substitutor
  classes : Dict String BeanRecipe
  factories : Dict String Factory
  labels : Labels

/-- The rule apart from its identity, where it is made while a document is read. -/
def RuleRef.anonymous (ref : RuleRef Empty) : RuleRef Empty :=
  match ref.rule with
  | .standard (.nestedChild _) => { ref with id := 0 }
  | _ => ref

def Call.anonymous (call : Call Empty) : Call Empty := { call with rule := call.rule.anonymous }

theorem RuleRef.rule_anonymous (ref : RuleRef Empty) : ref.anonymous.rule = ref.rule := by
  unfold anonymous
  split <;> rfl

/-- Rules that are the same but for their identities do the same. -/
theorem RuleRef.rule_eq {ref ref' : RuleRef Empty} (h : ref'.anonymous = ref.anonymous) :
    ref'.rule = ref.rule := by
  rw [← ref'.rule_anonymous, h, ref.rule_anonymous]

/-- How far a document has come, as both binders see it. -/
structure Outline where
  path : String
  outerPaths : List String
  matched : List (List (RuleRef Empty))
  /-- The texts of the open elements, without the one around all of them. -/
  pending : List String
  capture : Option Capture
  spaces : String → List String
  position : Option Position
  metrics : Metrics
  calls : List (Call Empty)

namespace Binder

variable (b : Binder Empty)

def setup : Setup := ⟨b.options, b.substitutor, b.classes, b.factories, b.labels⟩

def outline : Outline where
  path := b.path
  outerPaths := b.outerPaths
  matched := b.matched.map (List.map RuleRef.anonymous)
  pending := (b.text :: b.outerTexts).dropLast
  capture := b.capture
  spaces := b.spaces
  position := b.position
  metrics := b.metrics
  calls := b.calls.map Call.anonymous

end Binder

/-- Two matchers with so many decorations around one matcher, the same ones but for identities. -/
inductive Dressed (m : Matcher (RuleRef Empty)) :
    Nat → Matcher (RuleRef Empty) → Matcher (RuleRef Empty) → Prop
  | zero : Dressed m 0 m m
  | succ {n : Nat} {first second : Matcher (RuleRef Empty)} (h : Dressed m n first second)
      (place : Option (List Char)) (config : NestedConfig) (id id' : Nat) :
      Dressed m (n + 1) (.decorated first place ⟨id, .standard (.nestedChild config)⟩)
        (.decorated second place ⟨id', .standard (.nestedChild config)⟩)

theorem Dressed.undress {m first second : Matcher (RuleRef Empty)} {n : Nat}
    (h : Dressed m (n + 1) first second) :
    ∃ first' second', first.undecorated? = some first' ∧ second.undecorated? = some second' ∧
      Dressed m n first' second' := by
  cases h with
  | succ h => exact ⟨_, _, rfl, rfl, h⟩

/-- What a document finds when it starts: the matcher and the setup, the objects of documents
before, and the root that they left. -/
structure Ground where
  matcher : Matcher (RuleRef Empty)
  setup : Setup
  objects : Heap
  root : Option Value

/-- Where two runs stand together: how many decorations are in place, and what the labels stand for.
-/
structure Stage where
  decorations : Nat
  spaces : String → List String

/-- A stage with more decorations. -/
def Stage.up (i : Stage) (n : Nat) : Stage := { i with decorations := i.decorations + n }

theorem Stage.up_up (i : Stage) (m n : Nat) : (i.up m).up n = i.up (m + n) :=
  congrArg (Stage.mk · i.spaces) (Nat.add_assoc ..)

/-- The second binder is where the first one is, and has all of it behind the ground. -/
structure Mirrors (g : Ground) (i : Stage) (s b : Binder Empty) : Prop where
  outline : b.outline = s.outline
  spaces : s.spaces = i.spaces
  setup_first : s.setup = g.setup
  setup_second : b.setup = g.setup
  matcher : Dressed g.matcher i.decorations s.matcher b.matcher
  stack : b.stack = s.stack.map (Value.rename g.objects.place)
  params : b.params = s.params.map (List.map (Value.rename g.objects.place))
  named : ∀ name, b.named.items name = (s.named.items name).map (Value.rename g.objects.place)
  root : b.root = (s.root.map (Value.rename g.objects.place)).or g.root
  rooted : s.stack ≠ [] → s.root.isSome = true
  heap : b.heap = g.objects.behind s.heap

/-- The two are related, however far they have come. -/
def Related (g : Ground) (s b : Binder Empty) : Prop := ∃ i, Mirrors g i s b

theorem Mirrors.related {g : Ground} {i : Stage} {s b : Binder Empty} (h : Mirrors g i s b) :
    Related g s b := ⟨i, h⟩

/-! ### Steps that both make -/

namespace Mirrors

variable {g : Ground} {i : Stage} {s b : Binder Empty}

theorem setup_eq (h : Mirrors g i s b) : b.setup = s.setup :=
  h.setup_second.trans h.setup_first.symm

theorem path (h : Mirrors g i s b) : b.path = s.path := congrArg Outline.path h.outline

theorem note (h : Mirrors g i s b) (level level' : Level) (channel channel' : Channel)
    (text text' : String) :
    Mirrors g i (s.note level channel text) (b.note level' channel' text') := by
  rw [s.note_eq, b.note_eq]
  exact { h with }

theorem push (h : Mirrors g i s b) (v : Value) :
    Mirrors g i (s.push v) (b.push (v.rename g.objects.place)) := by
  rw [s.push_eq, b.push_eq]
  refine { h with stack := ?_, root := ?_, rooted := ?_ }
  · rw [h.stack, List.map_cons]
  · rw [h.stack, h.root]
    cases s.stack <;> rfl
  · intro _
    cases hs : s.stack with
    | nil => rfl
    | cons w rest => exact h.rooted (hs ▸ List.cons_ne_nil w rest)

theorem pop (h : Mirrors g i s b) :
    b.pop.1 = s.pop.1.map (Value.rename g.objects.place) ∧ Mirrors g i s.pop.2 b.pop.2 := by
  have hstack := h.stack
  unfold Binder.pop
  cases hs : s.stack with
  | nil =>
    rw [hs] at hstack
    rw [hstack]
    exact ⟨rfl, h.note ..⟩
  | cons v rest =>
    rw [hs] at hstack
    rw [hstack]
    exact ⟨rfl, { h with stack := rfl, rooted := fun _ => h.rooted (hs ▸ List.cons_ne_nil v rest) }⟩

theorem popFrame (h : Mirrors g i s b) :
    b.popFrame.1 = s.popFrame.1.map (List.map (Value.rename g.objects.place)) ∧
      Mirrors g i s.popFrame.2 b.popFrame.2 := by
  have hparams := h.params
  unfold Binder.popFrame
  cases hs : s.params with
  | nil =>
    rw [hs] at hparams
    rw [hparams]
    exact ⟨rfl, h.note ..⟩
  | cons frame rest =>
    rw [hs] at hparams
    rw [hparams]
    exact ⟨rfl, { h with params := rfl }⟩

theorem pushFrame (h : Mirrors g i s b) (frame : List Value) :
    Mirrors g i (s.pushFrame frame) (b.pushFrame (frame.map (Value.rename g.objects.place))) :=
  { h with params := congrArg _ h.params }

theorem store (h : Mirrors g i s b) (heap : Heap) :
    Mirrors g i { s with heap } { b with heap := g.objects.behind heap } :=
  { h with heap := rfl }

theorem pushNamed (h : Mirrors g i s b) (name : StackName) (v : Value) :
    Mirrors g i (s.pushNamed name v) (b.pushNamed name (v.rename g.objects.place)) := by
  refine { h with named := fun other => ?_ }
  change (b.named.push name _).items other = ((s.named.push name v).items other).map _
  rw [NamedStacks.items_push, NamedStacks.items_push, h.named, h.named]
  split <;> rfl

end Mirrors

namespace Action

/-- The second action mirrors the first one, from one stage to another. -/
abbrev Mirrored {ε α β : Type} (g : Ground) (i i' : Stage) (ρ : α → β) (act : Action Empty ε α)
    (act' : Action Empty ε β) : Prop :=
  Follows (Mirrors g i) (Mirrors g i') (Related g) ρ act act'

variable {ε α β : Type} {g : Ground} {i : Stage}

theorem mirrored_fail {i' : Stage} {ρ : α → β} (cause : ε) :
    Mirrored g i i' ρ (fail cause : Action Empty ε α) (fail cause) :=
  follows_fail (fun _ _ h => h.related) cause

theorem mirrored_lift (r : Except ε α) :
    Mirrored g i i id (lift r : Action Empty ε α) (lift r) := by
  cases r with
  | ok a => exact follows_pure a
  | error cause => exact mirrored_fail cause

theorem mirrored_note (level level' : Level) (channel channel' : Channel) (text text' : String) :
    Mirrored g i i id (note level channel text : Action Empty ε Unit)
      (note level' channel' text') :=
  follows_modify fun _ _ h => h.note ..

theorem mirrored_push (v : Value) :
    Mirrored g i i id (push v : Action Empty ε Unit) (push (v.rename g.objects.place)) :=
  follows_modify fun _ _ h => h.push v

theorem mirrored_pop : Mirrored g i i (Option.map (Value.rename g.objects.place))
    (pop : Action Empty ε (Option Value)) pop :=
  follows_modifyGet fun _ _ h => h.pop

theorem mirrored_peek (n : Nat) : Mirrored g i i (Option.map (Value.rename g.objects.place))
    (peek n : Action Empty ε (Option Value)) (peek n) :=
  follows_peek n (fun _ _ h => h.stack) fun _ _ _ _ _ h => h.note ..

theorem mirrored_popFrame :
    Mirrored g i i (Option.map (List.map (Value.rename g.objects.place)))
      (popFrame : Action Empty ε (Option (List Value))) popFrame :=
  follows_modifyGet fun _ _ h => h.popFrame

theorem mirrored_pushNamed (name : StackName) (v : Value) :
    Mirrored g i i id (modify (·.pushNamed name v) : Action Empty ε PUnit)
      (modify (·.pushNamed name (v.rename g.objects.place))) :=
  follows_modify fun _ _ h => h.pushNamed name v

theorem mirrored_setParam (index : Nat) (v : Value) :
    Mirrored g i i id (setParam index v : Action Empty RuleError Unit)
      (setParam index (v.rename g.objects.place)) := by
  refine follows_get_bind fun s b h => ?_
  have hparams := h.params
  unfold Binder.setParam
  cases hs : s.params with
  | nil =>
    rw [hs] at hparams
    rw [hparams]
    exact .error h.related
  | cons frame rest =>
    rw [hs] at hparams
    rw [hparams]
    simp only [List.map_cons, List.length_map]
    split
    · refine .ok { h with params := ?_ }
      rw [List.map_cons, List.map_set]
    · exact .error h.related

theorem mirrored_popNamed (name : StackName) :
    Mirrored g i i (Value.rename g.objects.place) (popNamed name : Action Empty RuleError Value)
      (popNamed name) := by
  refine follows_get_bind fun s b h => ?_
  have hnamed := h.named name
  unfold Binder.popNamed NamedStacks.pop?
  cases hs : s.named.items name with
  | nil =>
    rw [hs] at hnamed
    rw [hnamed]
    exact .error h.related
  | cons v rest =>
    rw [hs] at hnamed
    rw [hnamed]
    refine .ok { h with named := fun other => ?_ }
    change ((b.named.insert name _).get? other).getD [] = (((s.named.insert name _).get? other).getD
      []).map _
    rw [Dict.get?_insert, Dict.get?_insert]
    split
    · rfl
    · exact h.named other

/-! ### Objects -/

theorem mirrored_showAccess (e e' : Binder Empty → Event) :
    Mirrored g i i id (showAccess e : Action Empty ε Unit) (showAccess e') := by
  refine follows_modify fun s b h => ?_
  split <;> split <;> exact { h with }

theorem mirrored_commit (ρ : α → β) (r : Except CallError α × Heap) :
    Mirrored g i i ρ (commit r : Action Empty RuleError α)
      (commit (r.1.map ρ, g.objects.behind r.2)) := by
  have hstore : Mirrored g i i id (modify ({ · with heap := r.2 }) : Action Empty RuleError PUnit)
      (modify ({ · with heap := g.objects.behind r.2 })) :=
    follows_modify fun _ _ h => h.store r.2
  refine hstore.bind fun _ => ?_
  obtain ⟨cause | a, heap⟩ := r
  · exact mirrored_fail _
  · exact follows_pure _

theorem mirrored_invoke (target : Value) (method : String) (args : List Value)
    (types : List ScalarType) :
    Mirrored g i i (Value.rename g.objects.place)
      (invoke target method args types : Action Empty RuleError Value)
      (invoke (target.rename g.objects.place) method (args.map (Value.rename g.objects.place))
        types) := by
  refine (mirrored_showAccess ..).bind fun _ => Follows.of_get fun s b h => ?_
  rw [h.heap, Heap.prepare_behind]
  cases s.heap.prepare target method args types with
  | error cause => exact mirrored_fail _
  | ok ready =>
    obtain ⟨id, bean, args⟩ := ready
    refine (mirrored_note ..).bind fun _ => ?_
    dsimp only
    rw [Heap.call_behind]
    exact mirrored_commit _ _

theorem mirrored_setProperty (target : Value) (property : String) (v : Value) :
    Mirrored g i i id (setProperty target property v : Action Empty RuleError Unit)
      (setProperty (target.rename g.objects.place) property (v.rename g.objects.place)) := by
  refine (mirrored_showAccess ..).bind fun _ => Follows.of_get fun s b h => ?_
  rw [h.heap, Heap.setProperty_behind]
  have hcommit := mirrored_commit (g := g) (i := i) id (s.heap.setProperty target property v)
  rwa [Except.map_id] at hcommit

theorem mirrored_isWritable (target : Value) (property : String) :
    Mirrored g i i id (isWritable target property : Action Empty ε Bool)
      (isWritable (target.rename g.objects.place) property) := by
  refine Follows.of_get fun s b h => ?_
  rw [h.heap, Heap.isWritable_behind]
  exact (mirrored_showAccess ..).bind fun _ => follows_pure _

end Action

end XmlBinding
