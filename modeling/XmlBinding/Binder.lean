import XmlBinding.Expansion
import XmlBinding.Journal
import XmlBinding.Matcher
import XmlBinding.Reply

/-!
# The binder

A binder turns the events of a document into objects. This module holds its state: the matcher with
the registered rules, the stacks that rules work on, what is known of the open elements, and the
registries of classes and factories. The operations here never fail; what cannot be done is
answered by `none`.
-/
namespace XmlBinding

structure Binder (κ : Type) where
  matcher : Matcher (RuleRef κ) := .plain {}
  /-- The objects that rules work on. -/
  stack : Stack Value := []
  /-- The frames of the calls that wait for their arguments. -/
  params : Stack (List Value) := []
  named : NamedStacks Value := ∅
  /-- The first object that was put on the empty stack. -/
  root : Option Value := none
  /-- The names of the open elements with slashes between them. -/
  path : String := ""
  /-- The paths of the elements around, the innermost first. -/
  outerPaths : List String := []
  /-- The rules of the open elements, the innermost first. -/
  matched : List (List (RuleRef κ)) := []
  /-- The text of the innermost open element so far. -/
  text : String := ""
  /-- The texts of the elements around, the innermost first. -/
  outerTexts : List String := []
  /-- The node that the events go into instead of rules. -/
  capture : Option Capture := none
  /-- The namespaces bound to each name, the innermost first. -/
  bindings : Dict String (List String) := ∅
  entities : Dict String String := ∅
  position : Option Position := none
  substitutor : Option Substitutor := none
  /-- Whether calls on objects are shown as events. -/
  watched : Bool := false
  classes : Dict String BeanRecipe := ∅
  factories : Dict String Factory := ∅
  options : Options := {}
  metrics : Metrics := {}
  heap : Heap := {}
  labels : Labels := ∅
  /-- Rules that were kept to be registered more than once. -/
  kept : Dict String (RuleRef κ) := ∅
  /-- The identity of the next rule. -/
  nextRule : Nat := 0
  /-- The number of the next stack that belongs to one rule. -/
  nextStack : Nat := 0
  journal : Journal := {}
  /-- What has been shown, the last event first. -/
  shown : List Event := []
  /-- The calls of rules since the document started, the last one first. Nothing reads them: they
  are what statements about a run speak of. -/
  calls : List (Call κ) := []

namespace Binder

variable {κ : Type}

instance : Inhabited (Binder κ) := ⟨{}⟩

/-- Leave a message in the journal, if it keeps messages of this level. -/
def note (b : Binder κ) (level : Level) (channel : Channel) (text : String) : Binder κ :=
  if b.journal.keeps level then { b with journal := b.journal.add ⟨level, channel, text⟩ } else b

def display (b : Binder κ) (e : Event) : Binder κ := { b with shown := e :: b.shown }

def kindOf (b : Binder κ) (v : Value) : String := v.kind b.heap.typeName

/-- The number of open elements, captured ones left out. -/
def depth (b : Binder κ) : Nat := b.matched.length

def place (b : Binder κ) : Place := ⟨b.path, b.depth, b.stack.length⟩

/-! ### Objects on the stack -/

/-- Put an object on the stack. On an empty stack it becomes the root. -/
def push (b : Binder κ) (v : Value) : Binder κ :=
  let b := if b.stack.isEmpty then { b with root := some v } else b
  let b := b.note .trace .stack
    ("push " ++ b.kindOf v ++ " (depth " ++ toString (b.stack.length + 1) ++ ")")
  { b with stack := v :: b.stack }

def pop (b : Binder κ) : Option Value × Binder κ :=
  match b.stack with
  | [] => (none, b.note .warn .stack ("pop on empty object stack at '" ++ b.path ++ "'"))
  | v :: rest => (some v, { b with stack := rest })

/-- The object `n` levels below the top. -/
def peek (b : Binder κ) (n : Nat) : Except Overflow (Option Value × Binder κ) := do
  let found ← b.stack.peekAt n
  return (found, if found.isSome then b else b.note .warn .stack
    ("peek(" ++ toString n ++ ") beyond object stack depth " ++ toString b.stack.length))

/-! ### Frames of parameters -/

/-- A call starts to wait for its arguments. -/
def pushFrame (b : Binder κ) (frame : List Value) : Binder κ :=
  { b with params := frame :: b.params }

/-- Take the arguments of the innermost waiting call. -/
def popFrame (b : Binder κ) : Option (List Value) × Binder κ :=
  match b.params with
  | [] => (none, b.note .warn .stack ("pop on empty parameter stack at '" ++ b.path ++ "'"))
  | frame :: rest => (some frame, { b with params := rest })

/-- Put a value at the end of the top frame; the answer is the frame's new size. -/
def extendFrame (b : Binder κ) (v : Value) : Option Nat × Binder κ :=
  match b.params with
  | [] => (none, b)
  | frame :: rest => (some (frame.length + 1), { b with params := (frame ++ [v]) :: rest })

/-- Store a value in one slot of the top frame. -/
def setParam (b : Binder κ) (index : Nat) (v : Value) : Except RuleError (Binder κ) :=
  match b.params with
  | [] => .error .noParameterFrame
  | frame :: rest =>
    if index < frame.length then .ok { b with params := frame.set index v :: rest }
    else .error (.parameterIndex index frame.length)

/-! ### Named stacks -/

def pushNamed (b : Binder κ) (name : StackName) (v : Value) : Binder κ :=
  { b with named := b.named.push name v }

def popNamed (b : Binder κ) (name : StackName) : Except RuleError (Value × Binder κ) :=
  match b.named.pop? name with
  | some (v, named) => .ok (v, { b with named })
  | none => .error (.emptyStack name)

/-! ### Names of namespaces and entities -/

/-- A name stands for a namespace from now on. -/
def bindName (b : Binder κ) (label uri : String) : Binder κ :=
  let b := b.note .trace .dispatch ("prefix '" ++ label ++ "' -> '" ++ uri ++ "'")
  { b with bindings := b.bindings.insert label (uri :: (b.bindings.get? label).getD []) }

/-- The innermost binding of a name ends. -/
def unbindName (b : Binder κ) (label : String) : Binder κ :=
  match b.bindings.get? label with
  | none => b.note .warn .dispatch ("end of unknown prefix mapping '" ++ label ++ "'")
  | some uris => match uris.tail with
    | [] => { b with bindings := b.bindings.erase label }
    | outer => { b with bindings := b.bindings.insert label outer }

def namespaceOf? (b : Binder κ) (label : String) : Option String :=
  (b.bindings.get? label).bind (·.head?)

/-- The registered location of a public identifier, else the system identifier if it is not empty.
-/
def locate? (b : Binder κ) (publicId systemId : Option String) : Option String :=
  match publicId.bind b.entities.get? with
  | some location => some location
  | none => systemId.filter (!·.isEmpty)

/-! ### Matchers and rules -/

/-- Replace the matcher. The new one takes over the scope of registrations unless it has its own.
-/
def setMatcher (b : Binder κ) (m : Matcher (RuleRef κ)) : Binder κ :=
  { b with matcher := if m.scope.isNone then m.setScope b.matcher.scope else m }

/-- Add a rule to the matches of some elements until the decoration is removed. -/
def decorate (b : Binder κ) (place : Option (List Char)) (extra : RuleRef κ) : Binder κ :=
  { b with matcher := .decorated b.matcher place extra }

/-- Remove the outermost decoration, if there is one. -/
def undecorate (b : Binder κ) : Bool × Binder κ :=
  match b.matcher.undecorated? with
  | some inner => (true, { b with matcher := inner })
  | none => (false, b)

def undecorateAll (b : Binder κ) : Binder κ :=
  go b b.matcher
where
  go (b : Binder κ) : Matcher (RuleRef κ) → Binder κ
    | .decorated inner _ _ =>
      go ({ b with matcher := inner }.note .debug .dispatch
        "removed a leftover matcher decorator") inner
    | _ => b

def introduce (b : Binder κ) (rule : Rule κ) : RuleRef κ × Binder κ :=
  (⟨b.nextRule, rule⟩, { b with nextRule := b.nextRule + 1 })

/-- Give a standard rule a stack of its own. -/
def ownStack (b : Binder κ) (rule : StandardRule) : StandardRule × Binder κ :=
  (rule.renumber b.nextStack, { b with nextStack := b.nextStack + 1 })

/-! ### The end of a document -/

/-- Forget the open elements and empty the stacks. The root and the rules stay. -/
def clear (b : Binder κ) : Binder κ :=
  { b with
    path := "", outerPaths := [], matched := [], text := "", outerTexts := [], capture := none
    stack := [], params := [], named := ∅ }

/-- Forget everything that belongs to a document. -/
def reset (b : Binder κ) : Binder κ :=
  { b.undecorateAll.clear with
    root := none, bindings := ∅, position := none, metrics := {}, calls := [] }

/-- Clean up after a document that failed. The root stays for inspection. -/
def abandon (b : Binder κ) : Binder κ := { b.undecorateAll.clear with bindings := ∅ }

end Binder

/-! ## Actions -/

/-- How an action ends early: with an error, or without any answer. -/
inductive Halt (ε : Type)
  | error (cause : ε)
  | crash

/-- Something that works on a binder and may fail. What it did before a failure stays done. -/
abbrev Action (κ ε α : Type) := EStateM (Halt ε) (Binder κ) α

namespace Action

variable {κ ε ε' α : Type}

def fail (cause : ε) : Action κ ε α := throw (.error cause)

def crash : Action κ ε α := throw .crash

/-- Turn an answer that may be an error into an action. -/
def lift (r : Except ε α) : Action κ ε α :=
  match r with
  | .ok a => pure a
  | .error cause => fail cause

def mapError (f : ε → ε') (act : Action κ ε α) : Action κ ε' α := fun b =>
  match act b with
  | .ok a b => .ok a b
  | .error (.error cause) b => .error (.error (f cause)) b
  | .error .crash b => .error .crash b

/-- Carry out an action and answer its error instead of failing. -/
def attempt (act : Action κ ε α) : Action κ ε' (Except ε α) := fun b =>
  match act b with
  | .ok a b => .ok (.ok a) b
  | .error (.error cause) b => .ok (.error cause) b
  | .error .crash b => .error .crash b

def note (level : Level) (channel : Channel) (text : String) : Action κ ε Unit :=
  modify (·.note level channel text)

def push (v : Value) : Action κ ε Unit := modify (·.push v)

def pop : Action κ ε (Option Value) := modifyGet Binder.pop

/-- The answer of a computation with machine words; a sum that is too great for a word ends the
program. -/
def compute (r : Except Overflow α) : Action κ ε α :=
  match r with
  | .ok a => pure a
  | .error _ => crash

def peek (n : Nat) : Action κ ε (Option Value) := do
  let (found, b) ← compute ((← get).peek n)
  set b
  return found

def popFrame : Action κ ε (Option (List Value)) := modifyGet Binder.popFrame

def setParam (index : Nat) (v : Value) : Action κ RuleError Unit := do
  set (← lift ((← get).setParam index v))

def popNamed (name : StackName) : Action κ RuleError Value := do
  let (v, b) ← lift ((← get).popNamed name)
  set b
  return v

end Action

/-- Rules of the user's own kind: their names, and what they do when they are called. -/
structure Extension (κ : Type) where
  name : κ → String
  fire : κ → Callback → Action κ RuleError Unit

def Extension.none : Extension Empty := ⟨nofun, nofun⟩

end XmlBinding
