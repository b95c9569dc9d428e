import XmlBinding.Binder.Access
import XmlBinding.Text.Blank

/-!
# What the standard rules do

Each standard rule as three actions: one at the start tag, one with the element's text, and one at
the end tag. No standard rule does anything when the document is finished.
-/
namespace XmlBinding.StandardRule

variable {κ : Type}

/-- The top object, for a rule that cannot do without one. -/
def top (rule : String) : Action κ RuleError Value := do
  match ← Action.peek 0 with
  | some v => return v
  | none => Action.fail (.nothingOnStack rule)

/-! ### Objects -/

/-- The name of the class of an element's object. -/
def classFor (className attr : Option String) (attrs : Attributes) : Except RuleError String :=
  match attr.bind attrs.value? with
  | some name => .ok name
  | none => match className with
    | some name => .ok name
    | none => .error (.noClassName (attr.getD ""))

def create (className attr : Option String) (attrs : Attributes) : Action κ RuleError Unit := do
  let name ← Action.lift (classFor className attr attrs)
  let b ← get
  match b.classes.get? name with
  | none => Action.fail (.unknownClass name)
  | some recipe =>
    let (id, heap) := recipe.make b.labels b.heap
    set { b with heap }
    Action.note .debug .rules ("[ObjectCreateRule] new " ++ name ++ " at '" ++ b.path ++ "'")
    Action.push (.object id)

def lastSegment (path : String) : String :=
  String.ofList (path.toList.reverse.takeWhile (· ≠ '/')).reverse

/-- The factory that makes an element's object. -/
def factoryFor (b : Binder κ) (source : FactorySource) (attrs : Attributes) :
    Except RuleError Factory :=
  match source with
  | .direct factory => .ok factory
  | .elementBean => .ok ⟨.bean (.dynamic (lastSegment b.path) none []), none, []⟩
  | .named name attr =>
    let name := (attr.bind attrs.value?).getD name
    match b.factories.get? name with
    | some factory => .ok factory
    | none => .error (.unknownFactory name)

/-- The product for an element, and the object store behind the attempt to make it. -/
def produce (b : Binder κ) (source : FactorySource) (attrs : Attributes) :
    Except RuleError Value × Heap :=
  match factoryFor b source attrs with
  | .ok factory => factory.make b.labels b.heap b.path attrs
  | .error cause => (.error cause, b.heap)

/-- Make a product and put it on the stack. With `ignoreFailure` a failure is only noted; whether
there was one is kept on the rule's own stack. -/
def produceObject (source : FactorySource) (ignoreFailure : Bool) (created : StackName)
    (attrs : Attributes) : Action κ RuleError Unit := do
  let b ← get
  let (product, heap) := produce b source attrs
  set { b with heap }
  match product with
  | .ok v =>
    Action.push v
    if ignoreFailure then modify (·.pushNamed created (.bool true))
  | .error cause =>
    if ignoreFailure then
      Action.note .info .rules ("[FactoryCreateRule] creation failed at '" ++ b.path ++
        "', ignored: " ++ cause.message)
      modify (·.pushNamed created (.bool false))
    else Action.fail cause

/-- Take the product off the stack, unless there was none. -/
def dropProduct (ignoreFailure : Bool) (created : StackName) : Action κ RuleError Unit := do
  if ignoreFailure then
    match ← Action.popNamed created with
    | .bool false =>
      Action.note .debug .rules "[FactoryCreateRule] nothing was created, skipping pop"
    | _ => discard Action.pop
  else discard Action.pop

/-! ### Properties -/

/-- The property that a name stands for: the name itself unless it has an alias, and `none` for a
name that is left out. -/
def propertyFor (aliases : Dict String (Option String)) (name : String) : Option String :=
  match aliases.get? name with
  | some target => target
  | none => some name

/-- Whether a property is left out. The object is asked only where missing properties are
ignored. -/
def isLeftOut (ignoreMissing : Bool) (target : Value) (property : String) :
    Action κ RuleError Bool := do
  if ignoreMissing then return !(← Action.isWritable target property)
  else return false

def setFromAttribute (aliases : Dict String (Option String)) (ignoreMissing : Bool)
    (target : Value) (a : Attribute) : Action κ RuleError Unit := do
  match propertyFor aliases a.name with
  | none => return ()
  | some property =>
    if ← isLeftOut ignoreMissing target property then
      Action.note .debug .rules ("[SetPropertiesRule] no property '" ++ property ++ "', skipped")
    else Action.setProperty target property (.text a.value)

/-- Assign every attribute to the property of its name. -/
def setFromAttributes (aliases : Dict String (Option String)) (ignoreMissing : Bool)
    (attrs : Attributes) : Action κ RuleError Unit := do
  let target ← top "SetPropertiesRule"
  attrs.forM (setFromAttribute aliases ignoreMissing target)

/-- Assign the property that one attribute names, with the value of another one. -/
def setNamedProperty (nameAttribute valueAttribute : String) (attrs : Attributes) :
    Action κ RuleError Unit := do
  match attrs.value? nameAttribute with
  | none =>
    Action.note .debug .rules ("[SetPropertyRule] no '" ++ nameAttribute ++ "' attribute, skipped")
  | some property =>
    let target ← top "SetPropertyRule"
    Action.setProperty target property (((attrs.value? valueAttribute).map .text).getD .null)

/-- Assign the text kept on the rule's own stack. -/
def setFromText (property : Option String) (texts : StackName) (name : String) :
    Action κ RuleError Unit := do
  let v ← Action.popNamed texts
  let target ← top "BeanPropertySetterRule"
  Action.setProperty target (property.getD name) v

/-- The children of the current element become properties, until the element ends. -/
def decorateChildren (config : NestedConfig) : Action κ RuleError Unit :=
  modify fun b =>
    let (ref, b) := b.introduce (.standard (.nestedChild config))
    b.decorate (some (b.path ++ "/").toList) ref

def undecorateChildren : Action κ RuleError Unit := do
  unless ← modifyGet Binder.undecorate do
    Action.note .warn .rules
      ("[SetNestedPropertiesRule] no decorator to remove at '" ++ (← get).path ++ "'")

/-- Assign a child's text to the property of its name. -/
def setFromChild (config : NestedConfig) (name text : String) : Action κ RuleError Unit := do
  match propertyFor config.aliases name with
  | none => return ()
  | some property =>
    let target ← top "SetNestedPropertiesRule"
    if ← isLeftOut config.allowUnknown target property then
      Action.note .debug .rules
        ("[SetNestedPropertiesRule] no property '" ++ property ++ "', skipped")
    else
      Action.setProperty target property (.text (if config.trim then Text.trim text else text))

/-- Store a text that is not blank as the property `text`. -/
def storeNonBlank (trim : Bool) (text : String) : Action κ RuleError Unit := do
  unless Text.isAllBlank text do
    let target ← top "TextRule"
    Action.setProperty target "text" (.text (if trim then Text.trim text else text))

/-! ### Calls -/

/-- How many levels below the top the target of a call is: `offset` levels, or for a negative offset
those that leave that many objects from the bottom on. -/
def callIndex? (offset : Int) (depth : Nat) : Option Nat :=
  if 0 ≤ offset then some offset.toNat
  else if offset.natAbs ≤ depth then some (depth - offset.natAbs) else none

/-- The target of a call. Null is no target. -/
def callTarget (offset : Int) : Action κ RuleError Value := do
  let depth := (← get).stack.length
  let found ← match callIndex? offset depth with
    | some index => Action.peek index
    | none => pure none
  match found.filter (!·.isNull) with
  | some v => return v
  | none => Action.fail (.noCallTarget offset depth)

/-- The arguments of a deferred call; `none` if its only parameter was never set. -/
def collectArguments (method : String) (arguments : Arguments) (texts : StackName) :
    Action κ RuleError (Option (List Value)) := do
  match arguments with
  | .frame size => match ← Action.popFrame with
    | none => Action.fail .noParameterFrame
    | some frame =>
      if size = 1 ∧ (frame.headD .null).isNull then
        Action.note .debug .rules
          ("[CallMethodRule] " ++ method ++ ": parameter never set, call skipped")
        return none
      else return some frame
  | .bodyText => return some [← Action.popNamed texts]
  | .nothing => return some []

def callDeferred (method : String) (arguments : Arguments) (types : List ScalarType) (offset : Int)
    (texts : StackName) : Action κ RuleError Unit := do
  match ← collectArguments method arguments texts with
  | none => return ()
  | some args =>
    let target ← callTarget offset
    Action.note .debug .rules ("[CallMethodRule] " ++ (← get).kindOf target ++ "." ++ method ++
      "(" ++ toString args.length ++ " args)")
    discard (Action.invoke target method args types)

/-- Fill a parameter from an attribute that is present or from the stack. -/
def fillParameter (index : Nat) (source : ParamSource) (attrs : Attributes) :
    Action κ RuleError Unit := do
  match source with
  | .attr name => match attrs.value? name with
    | some v => Action.setParam index (.text v)
    | none => return ()
  | .stack depth => Action.setParam index ((← Action.peek depth).getD .null)
  | .body => return ()

/-- The two objects of a link: the one that is called, and its argument. -/
def linkEnds (target : LinkTarget) : Action κ RuleError (Value × Value) := do
  let child ← top target.ruleName
  match target with
  | .next => match ← Action.peek 1 with
    | some parent => return (parent, child)
    | none => Action.fail (.nothingOnStack target.ruleName)
  | .root => match (← get).root with
    | some root => return (root, child)
    | none => Action.fail (.nothingOnStack target.ruleName)
  | .top => return (child, (← Action.peek 1).getD .null)

def makeLink (target : LinkTarget) (method : String) (type : Option ScalarType) :
    Action κ RuleError Unit := do
  let (callee, arg) ← linkEnds target
  let b ← get
  Action.note .debug .rules ("[" ++ target.ruleName ++ "] " ++ b.kindOf callee ++ "." ++ method ++
    "(" ++ b.kindOf arg ++ ")")
  discard (Action.invoke callee method [arg] type.toList)

/-- The element and everything in it becomes a node. -/
def startCapture (fragment : Bool) (uri name : String) (attrs : Attributes) :
    Action κ RuleError Unit :=
  modify ({ · with
    capture := some { root := if fragment then .fragment [] else .element uri name attrs [] } })

/-- The most slots of a frame: a signed machine word counts the 32 bytes of all of them. -/
def maxFrame : Nat := 288230376151711743

/-- Put a frame of empty slots on its stack. A frame that cannot be addressed ends the program. -/
def openFrame (size : Nat) : Action κ RuleError Unit :=
  if size ≤ maxFrame then modify (·.pushFrame (List.replicate size .null)) else Action.crash

/-! ### The three occasions -/

def onStart (rule : StandardRule) (uri name : String) (attrs : Attributes) :
    Action κ RuleError Unit := do
  match rule with
  | .objectCreate className attr => create className attr attrs
  | .factoryCreate source ignoreFailure number =>
    produceObject source ignoreFailure (createdFlags number) attrs
  | .setProperties aliases ignoreMissing => setFromAttributes aliases ignoreMissing attrs
  | .setProperty nameAttribute valueAttribute =>
    setNamedProperty nameAttribute valueAttribute attrs
  | .setNested config => decorateChildren config
  | .callMethod _ (.frame size) _ _ _ => openFrame size
  | .callParam index source _ => fillParameter index source attrs
  | .objectParam index v attr =>
    match attr with
    | some wanted => if (attrs.value? wanted).isSome then Action.setParam index v
    | none => Action.setParam index v
  | .pathParam index => Action.setParam index (.text (← get).path)
  | .link target method type true => makeLink target method type
  | .nodeCreate fragment => startCapture fragment uri name attrs
  | _ => return ()

def onBody (rule : StandardRule) (name text : String) : Action κ RuleError Unit := do
  match rule with
  | .textProperty _ number => modify (·.pushNamed (propertyTexts number) (.text (Text.trim text)))
  | .setNested _ => undecorateChildren
  | .nestedChild config => setFromChild config name text
  | .callMethod _ .bodyText _ _ number =>
    modify (·.pushNamed (callTexts number) (.text (Text.trim text)))
  | .callParam _ .body number =>
    modify (·.pushNamed (parameterTexts number) (.text (Text.trim text)))
  | .storeText trim => storeNonBlank trim text
  | _ => return ()

def onClose (rule : StandardRule) (name : String) : Action κ RuleError Unit := do
  match rule with
  | .objectCreate _ _ => discard Action.pop
  | .factoryCreate _ ignoreFailure number => dropProduct ignoreFailure (createdFlags number)
  | .textProperty property number => setFromText property (propertyTexts number) name
  | .callMethod method arguments types offset number =>
    callDeferred method arguments types offset (callTexts number)
  | .callParam index .body number =>
    Action.setParam index (← Action.popNamed (parameterTexts number))
  | .link target method type false => makeLink target method type
  | .nodeCreate _ => discard Action.pop
  | _ => return ()

def fire (rule : StandardRule) : Callback → Action κ RuleError Unit
  | .start uri name attrs => rule.onStart uri name attrs
  | .body _ name text => rule.onBody name text
  | .close _ name => rule.onClose name
  | .finish => return ()

end XmlBinding.StandardRule
