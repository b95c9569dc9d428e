import XmlBinding.Binder

/-!
# Access to objects

The three ways in which rules reach an object: calling a method, assigning a property and asking
whether a property can be written. Where calls are watched, each of them is shown as an event.
-/
namespace XmlBinding.Action

variable {κ ε : Type}

/-- Show an event, if calls are watched. -/
def showAccess (e : Binder κ → Event) : Action κ ε Unit :=
  modify fun b => if b.watched then b.display (e b) else b

/-- Replace the object store and hand on what happened to it. -/
def commit {α : Type} (r : Except CallError α × Heap) : Action κ RuleError α := do
  modify ({ · with heap := r.2 })
  match r.1 with
  | .ok a => return a
  | .error cause => fail (.call cause)

/-- Call a method, with the arguments in the given types or in those that the object declares. -/
def invoke (target : Value) (method : String) (args : List Value) (types : List ScalarType) :
    Action κ RuleError Value := do
  showAccess fun b => .invoke (b.kindOf target) method args.length types
  let b ← get
  match b.heap.prepare target method args types with
  | .error cause => fail (.call cause)
  | .ok (id, bean, args) =>
    note .trace .rules
      ("invoke " ++ bean.typeName ++ "." ++ method ++ "(" ++ toString args.length ++ " args)")
    commit (b.heap.call id bean method args)

def setProperty (target : Value) (property : String) (v : Value) : Action κ RuleError Unit := do
  showAccess fun b => .assign (b.kindOf target) property (b.kindOf v)
  commit ((← get).heap.setProperty target property v)

def isWritable (target : Value) (property : String) : Action κ ε Bool := do
  let writable := (← get).heap.isWritable target property
  showAccess fun b => .asked (b.kindOf target) property writable
  return writable

end XmlBinding.Action
