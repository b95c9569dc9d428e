import XmlBinding.Rule
import XmlBinding.Script.MatcherStep

/-!
# Operations and scripted rules

Everything that can be asked of a binder as data, and the rules that are made of it: a recording
rule shows every call, a scripted rule carries out operations when it is called, and a silent rule
does nothing.
-/
namespace XmlBinding

mutual

inductive RuleRecipe
  | standard (rule : StandardRule)
  /-- A rule that fills a parameter with a value, which is made once. -/
  | objectParam (index : Nat) (value : ValueRecipe) (attr : Option String)
  | recording (name : String)
  /-- The operations for each occasion; where the flag is set, a failure is the rule's own. -/
  | scripted (name : String) (start body close finish : List (Operation × Bool))
  | silent
  /-- The rule that was kept under a name. -/
  | kept (label : String)

inductive Operation
  -- rules and matchers
  | addRule (pattern : String) (rule : RuleRecipe) (wrapped : Bool)
  | addRules (pattern : String) (rules : List RuleRecipe)
  | keepRule (label : String) (rule : RuleRecipe)
  | setMatcher (kind : MatcherKind) (steps : List (MatcherStep String)) (answerOld : Bool)
  | restart (kind : MatcherKind)
  | installGeneric (trim : Bool)
  | setScope (scope : Option String)
  | scope
  | ruleNames
  | clearRules
  | rulesFor (uri path : String)
  | decorate (rule : RuleRecipe)
  | undecorate
  -- registries and settings
  | registerClasses (classes : List (String × BeanRecipe))
  | hasClass (name : String)
  | instantiate (name : String)
  | registerFactory (name : String) (factory : Factory)
  | hasFactory (name : String)
  | setExpander (expander : Option Expander)
  | watch
  | setOptions (options : Options)
  | options
  -- stacks
  | push (value : ValueRecipe)
  | pop
  | peek (n : Nat)
  | count
  | root
  | takeRoot
  | pushFrame (values : List ValueRecipe)
  | popFrame
  | peekFrame (n : Nat)
  | extendFrame (value : ValueRecipe)
  | setParam (index : Nat) (value : ValueRecipe)
  | pushNamed (name : String) (value : ValueRecipe)
  | popNamed (name : String)
  | peekNamed (name : String) (n : Nat)
  | replaceNamed (name : String) (value : ValueRecipe)
  | namedState (name : String)
  -- the document
  | capturing
  | position
  | setPosition (position : Option Position)
  | bindName (label uri : String)
  | unbindName (label : String)
  | namespaceOf (label : String)
  | registerEntity (publicId location : String)
  | locate (publicId systemId : Option String)
  | clear
  | reset
  | metrics
  | startDocument
  | startElement (uri localName qualifiedName : String) (attributes : Attributes)
  | characters (text : String)
  | endElement (uri localName qualifiedName : String)
  | endDocument
  /-- Read a document; `none` is one that could not be read as a text. -/
  | parse (text : Option String)
  -- objects
  | make (label : String) (bean : BeanRecipe)
  | dump (target : ValueRecipe)
  | invoke (target : ValueRecipe) (method : String) (args : List ValueRecipe)
      (types : List ScalarType)
  | setProperty (target : ValueRecipe) (property : String) (value : ValueRecipe)
  | isWritable (target : ValueRecipe) (property : String)
  | convert (value : ValueRecipe) (type : ScalarType)
  | beanProperty (target : ValueRecipe) (property : String)
  | beanPropertyType (target : ValueRecipe) (property : String)
  | beanAssign (target : ValueRecipe) (property : String) (value : ValueRecipe)
  | beanCall (target : ValueRecipe) (method : String) (args : List ValueRecipe)
  | beanSignature (target : ValueRecipe) (method : String) (arity : Nat)
  | isDynamic (target : ValueRecipe)
  | whileHeld (target : ValueRecipe) (operations : List Operation)
  | fail (cause : RuleError)
  -- inspection
  | inspect
  | inspectRule (rule : RuleRecipe)
  | inspectBean (target : ValueRecipe)

end

instance : Inhabited Operation := ⟨.clear⟩
instance : Inhabited RuleRecipe := ⟨.silent⟩

/-- The rules that only sessions have. -/
inductive Probe
  | recording (name : String)
  | scripted (name : String) (operations : Phase → List (Operation × Bool))
  | silent

def Probe.name : Probe → String
  | .recording name => name
  | .scripted name _ => name
  | .silent => "Rule"

end XmlBinding
