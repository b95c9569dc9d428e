import XmlBinding.Dispatch

/-!
# Registration

Rules are registered with the matcher under a pattern. A pattern that the matcher refuses leaves
everything as it was, and of several rules none is registered behind it.
-/
namespace XmlBinding

variable {κ : Type}

def addRule (x : Extension κ) (pattern : String) (ref : RuleRef κ) : Action κ BindError Unit := do
  Action.note .debug .dispatch ("add " ++ ref.name x ++ " for '" ++ pattern ++ "'")
  let b ← get
  match b.matcher.add pattern ref with
  | .ok matcher => set { b with matcher }
  | .error cause => Action.fail (.pattern cause)

/-- Register several rules under one pattern, in their order, up to the first that is refused. -/
def addRules (x : Extension κ) (pattern : String) (refs : List (RuleRef κ)) :
    Action κ BindError Unit :=
  refs.forM (addRule x pattern)

/-- A standard rule with a stack and an identity of its own. -/
def introduceStandard (rule : StandardRule) : Action κ BindError (RuleRef κ) :=
  modifyGet fun b =>
    let (rule, b) := b.ownStack rule
    b.introduce (.standard rule)

def addStandard (x : Extension κ) (pattern : String) (rule : StandardRule) :
    Action κ BindError Unit := do
  addRule x pattern (← introduceStandard rule)

end XmlBinding
