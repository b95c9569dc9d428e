import XmlBinding.Error
import XmlBinding.Recipe

/-!
# Rules

The standard rules as data. A rule holds its configuration only; what has to last from the start of
an element to its end lives on the stacks, so one rule can be at work at several depths at once. A
user may bring rules of another kind.
-/
namespace XmlBinding

/-- Where the objects of a factory rule come from. -/
inductive FactorySource
  | direct (factory : Factory)
  /-- A dynamic bean named after the element. -/
  | elementBean
  /-- A registered factory; an attribute may name another one. -/
  | named (name : String) (attr : Option String)

/-- How child elements become properties. -/
structure NestedConfig where
  /-- The property of a child, or `none` for a child that is left out. -/
  aliases : Dict String (Option String) := ∅
  trim : Bool := true
  allowUnknown : Bool := false

inductive Arguments
  | bodyText
  | nothing
  /-- This many slots, filled by rules on nested elements. -/
  | frame (size : Nat)
  deriving DecidableEq

/-- What a parameter is taken from. -/
inductive ParamSource
  | body
  | attr (name : String)
  | stack (depth : Nat)

/-- The two objects that are linked: the child to its parent, to the root, or the parent to the
child. -/
inductive LinkTarget
  | next
  | root
  | top
  deriving DecidableEq

/-- The standard rules. Some keep what they have to know at the end tag on a stack of their own, and
carry the number of that stack. -/
inductive StandardRule
  | objectCreate (className attr : Option String)
  | factoryCreate (source : FactorySource) (ignoreFailure : Bool) (number : Nat)
  | setProperties (aliases : Dict String (Option String)) (ignoreMissing : Bool)
  | setProperty (nameAttribute valueAttribute : String)
  | textProperty (property : Option String) (number : Nat)
  | setNested (config : NestedConfig)
  | nestedChild (config : NestedConfig)
  | callMethod (method : String) (arguments : Arguments) (types : List ScalarType) (offset : Int)
      (number : Nat)
  | callParam (index : Nat) (source : ParamSource) (number : Nat)
  | objectParam (index : Nat) (value : Value) (attr : Option String)
  | pathParam (index : Nat)
  | link (target : LinkTarget) (method : String) (type : Option ScalarType) (atStart : Bool)
  | nodeCreate (fragment : Bool)
  | storeText (trim : Bool)

def LinkTarget.ruleName : LinkTarget → String
  | .next => "SetNextRule"
  | .root => "SetRootRule"
  | .top => "SetTopRule"

def StandardRule.name : StandardRule → String
  | .objectCreate .. => "ObjectCreateRule"
  | .factoryCreate .. => "FactoryCreateRule"
  | .setProperties .. => "SetPropertiesRule"
  | .setProperty .. => "SetPropertyRule"
  | .textProperty .. => "BeanPropertySetterRule"
  | .setNested .. => "SetNestedPropertiesRule"
  | .nestedChild .. => "SetNestedPropertiesRule.child"
  | .callMethod .. => "CallMethodRule"
  | .callParam .. => "CallParamRule"
  | .objectParam .. => "ObjectParamRule"
  | .pathParam .. => "PathCallParamRule"
  | .link target .. => target.ruleName
  | .nodeCreate .. => "NodeCreateRule"
  | .storeText .. => "TextRule"

namespace StandardRule

def factory (source : FactorySource) (ignoreFailure : Bool) : StandardRule :=
  .factoryCreate source ignoreFailure 0

def setFromBody (property : Option String) : StandardRule := .textProperty property 0

def call (method : String) (arguments : Arguments) (types : List ScalarType) (offset : Int) :
    StandardRule :=
  .callMethod method arguments types offset 0

def parameter (index : Nat) (source : ParamSource) : StandardRule := .callParam index source 0

/-- The arguments of a call with this many parameters; a call without parameters takes the text. -/
def argumentsFor (count : Nat) : Arguments := if count = 0 then .bodyText else .frame count

/-- The same rule with its own stack under another number. -/
def renumber (number : Nat) : StandardRule → StandardRule
  | .factoryCreate source ignoreFailure _ => .factoryCreate source ignoreFailure number
  | .textProperty property _ => .textProperty property number
  | .callMethod method arguments types offset _ =>
    .callMethod method arguments types offset number
  | .callParam index source _ => .callParam index source number
  | other => other

/-! The stacks that rules have for themselves. -/

/-- Whether a factory rule has created something. -/
def createdFlags (number : Nat) : StackName := .own "factory-created" number

/-- The texts for a property. -/
def propertyTexts (number : Nat) : StackName := .own "bean-property-text" number

/-- The texts for a call. -/
def callTexts (number : Nat) : StackName := .own "call-method-text" number

/-- The texts for a parameter. -/
def parameterTexts (number : Nat) : StackName := .own "call-param-text" number

end StandardRule

inductive Rule (κ : Type)
  | standard (rule : StandardRule)
  | custom (rule : κ)

/-- A rule with its identity: the same rule may be registered several times. -/
structure RuleRef (κ : Type) where
  id : Nat
  rule : Rule κ

inductive Callback
  | start (uri name : String) (attrs : Attributes)
  | body (uri name text : String)
  | close (uri name : String)
  | finish

def Callback.phase : Callback → Phase
  | .start .. => .start
  | .body .. => .body
  | .close .. => .close
  | .finish => .finish

/-- A call together with the rule that is called. -/
structure Call (κ : Type) where
  rule : RuleRef κ
  callback : Callback

end XmlBinding
