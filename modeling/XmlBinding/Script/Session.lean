import XmlBinding.Generic
import XmlBinding.Script.Operation

/-!
# Sessions

Carrying out operations on a binder one after the other. Operations inside scripted rules work on
the same binder while it dispatches an event, so they may cause events themselves; how deep such
events may be nested is limited.
-/
namespace XmlBinding.Script

abbrev Task (α : Type) := Action Probe Failure α

/-! ### Making values and rules -/

def makeValue (recipe : ValueRecipe) : Task Value :=
  modifyGet fun b =>
    let (v, heap) := recipe.make b.labels b.heap
    (v, { b with heap })

def makeValues (recipes : List ValueRecipe) : Task (List Value) := recipes.mapM makeValue

def makeBean (recipe : BeanRecipe) : Task ObjectId :=
  modifyGet fun b =>
    let (id, heap) := recipe.make b.labels b.heap
    (id, { b with heap })

def introduce (rule : Rule Probe) : Task (RuleRef Probe) := modifyGet (·.introduce rule)

def forPhase {α : Type} (start body close finish : α) : Phase → α
  | .start => start
  | .body => body
  | .close => close
  | .finish => finish

def makeRule : RuleRecipe → Task (RuleRef Probe)
  | .standard rule => do
    introduce (.standard (← modifyGet (·.ownStack rule)))
  | .objectParam index value attr => do
    introduce (.standard (.objectParam index (← makeValue value) attr))
  | .recording name => introduce (.custom (.recording name))
  | .scripted name start body close finish =>
    introduce (.custom (.scripted name (forPhase start body close finish)))
  | .silent => introduce (.custom .silent)
  | .kept label => do
    match (← get).kept.get? label with
    | some ref => return ref
    | none => introduce (.custom .silent)

/-- The same rule under an identity of its own. -/
def wrapRule (ref : RuleRef Probe) : Task (RuleRef Probe) := introduce ref.rule

/-! ### Operations -/

variable (x : Extension Probe)

def bindTask {α : Type} (act : Action Probe BindError α) : Task α := act.mapError .bind

def ruleTask {α : Type} (act : Action Probe RuleError α) : Task α := act.mapError .rule

def change (f : Binder Probe → Binder Probe) : Task Answer := do
  modify f
  return .done

def ask (f : Binder Probe → Answer) : Task Answer := return f (← get)

/-- The steps on a matcher with rules instead of their names. -/
def ruleStep (s : MatcherStep String) : Task (MatcherStep (RuleRef Probe)) := do
  match s with
  | .add pattern name => return .add pattern (← introduce (.custom (.recording name)))
  | .addDefault name => return .addDefault (← introduce (.custom (.recording name)))
  | .setScope scope => return .setScope scope
  | .scope => return .scope
  | .clear => return .clear
  | .rulesFor uri path => return .rulesFor uri path
  | .rules => return .rules
  | .setDialect dialect => return .setDialect dialect
  | .entries => return .entries
  | .defaults => return .defaults
  | .takeDecorated => return .takeDecorated
  | .inspect => return .inspect

/-- Carry out steps on a matcher, up to a pattern that is refused. -/
def prepareMatcher (m : Matcher (RuleRef Probe)) :
    List (MatcherStep String) → Task (Matcher (RuleRef Probe))
  | [] => return m
  | s :: rest => do
    match m.step (·.name x) (← ruleStep s) with
    | (.crash, _) => Action.crash
    | (.refused cause, _) => Action.fail (.bind (.pattern cause))
    | (_, m) => prepareMatcher m rest

/-- Replace the matcher, after some steps on the new one. -/
def replaceMatcher (kind : MatcherKind) (steps : List (MatcherStep String)) (answerOld : Bool) :
    Task Answer := do
  let m ← prepareMatcher x kind.make steps
  let old := (← get).matcher
  modify (·.setMatcher m)
  return if answerOld then .names (old.rules.map (·.name x)) else .done

/-- A new binder that shares nothing with the old one but objects and rules by their names. -/
def restart (kind : MatcherKind) (b : Binder Probe) : Binder Probe :=
  { matcher := kind.make, heap := b.heap, labels := b.labels, kept := b.kept
    nextRule := b.nextRule, nextStack := b.nextStack, journal := b.journal, shown := b.shown }

/-- Work on the object behind a value, which must not be held. -/
def withBean {α : Type} (target : ValueRecipe) (f : ObjectId → Bean → Task α) : Task α := do
  match (← makeValue target).object? with
  | none => Action.crash
  | some id => match (← get).heap.bean? id with
    | none => Action.crash
    | some bean => f id bean

/-- Rules, matchers, registries and settings. -/
def configure : Operation → Task Answer
  | .addRule pattern rule wrapped => do
    let ref ← makeRule rule
    bindTask (addRule x pattern (← if wrapped then wrapRule ref else pure ref))
    return .done
  | .addRules pattern rules => do
    let refs ← rules.mapM fun rule => do wrapRule (← makeRule rule)
    bindTask (addRules x pattern refs)
    return .done
  | .keepRule label rule => do
    let ref ← makeRule rule
    change fun b => { b with kept := b.kept.insert label ref }
  | .setMatcher kind steps answerOld => replaceMatcher x kind steps answerOld
  | .restart kind => change (restart kind)
  | .installGeneric trim => do
    bindTask (Generic.install x trim)
    return .done
  | .setScope scope => change fun b => { b with matcher := b.matcher.setScope scope }
  | .scope => ask fun b => .text b.matcher.scope
  | .ruleNames => ask fun b => .names (b.matcher.rules.map (·.name x))
  | .clearRules => change fun b => { b with matcher := b.matcher.clear }
  | .rulesFor uri path => do
    match (← get).matcher.rulesFor? uri path.toList "" [] with
    | some found => return .names (found.map (·.name x))
    | none => Action.crash
  | .decorate rule => do
    let ref ← makeRule rule
    change (·.decorate none ref)
  | .undecorate => return .flag (← modifyGet Binder.undecorate)
  | .registerClasses classes => change fun b => { b with classes := b.classes.insertAll classes }
  | .hasClass name => ask fun b => .flag (b.classes.contains name)
  | .instantiate name => do
    match (← get).classes.get? name with
    | some recipe => return .value (.object (← makeBean recipe))
    | none => return .valueOrNone none
  | .registerFactory name factory =>
    change fun b => { b with factories := b.factories.insert name factory }
  | .hasFactory name => ask fun b => .flag (b.factories.contains name)
  | .setExpander expander =>
    change ({ · with substitutor := expander.map Expander.substitutor })
  | .watch => change ({ · with watched := true })
  | .setOptions options => change ({ · with options })
  | .options => ask fun b =>
      .flags [b.options.namespaceAware, b.options.trimText, b.options.collectTrace]
  | .inspect => ask fun b => .text (some (Inspection.binder b))
  | .inspectRule rule => do
    match (← makeRule rule).rule with
    | .standard (.factoryCreate source ignoreFailure _) =>
      return .text (some (Inspection.factoryRule source ignoreFailure))
    | _ => return .text none
  | _ => return .done

def stackTask : Operation → Task Answer
  | .push value => do
    let v ← makeValue value
    change (·.push v)
  | .pop => return .valueOrNone (← Action.pop)
  | .peek n => return .valueOrNone (← Action.peek n)
  | .count => ask fun b => .number b.stack.length
  | .root => ask fun b => .valueOrNone b.root
  | .takeRoot => modifyGet fun b => (.valueOrNone b.root, { b with root := none })
  | .pushFrame values => do
    let vs ← makeValues values
    change (·.pushFrame vs)
  | .popFrame => return .valuesOrNone (← Action.popFrame)
  | .peekFrame n => return .valuesOrNone (← Action.compute ((← get).params.peekAt n))
  | .extendFrame value => do
    let v ← makeValue value
    return .numberOrNone (← modifyGet (·.extendFrame v))
  | .setParam index value => do
    let v ← makeValue value
    ruleTask (Action.setParam index v)
    return .done
  | .pushNamed name value => do
    let v ← makeValue value
    change (·.pushNamed (.shared name) v)
  | .popNamed name => return .value (← ruleTask (Action.popNamed (.shared name)))
  | .peekNamed name n => do
    let named := (← get).named
    return .valueOrNone (← Action.compute (NamedStacks.peekAt named (.shared name) n))
  | .replaceNamed name value => do
    let v ← makeValue value
    match ← Action.compute (NamedStacks.exchangeAt (← get).named (.shared name) 0 v) with
    | some (old, named) =>
      modify ({ · with named })
      return .valueOrNone (some old)
    | none => return .valueOrNone none
  | .namedState name => ask fun b =>
      let items := b.named.items (.shared name)
      .stackState items.isEmpty items.length
  | _ => return .done

/-- The state of the document and its events. -/
def documentTask : Operation → Task Answer
  | .capturing => ask fun b => .flag b.capture.isSome
  | .position => ask fun b => .position b.position
  | .setPosition position => change ({ · with position })
  | .bindName label uri => change (·.bindName label uri)
  | .unbindName label => change (·.unbindName label)
  | .namespaceOf label => ask fun b => .text (b.namespaceOf? label)
  | .registerEntity publicId location =>
    change fun b => { b with entities := b.entities.insert publicId location }
  | .locate publicId systemId => ask fun b => .text (b.locate? publicId systemId)
  | .clear => change Binder.clear
  | .reset => change Binder.reset
  | .metrics => ask fun b => .metrics b.metrics
  | .startDocument => change Binder.startDocument
  | .startElement uri localName qualifiedName attributes => do
    bindTask (startElement x uri localName qualifiedName attributes)
    return .done
  | .characters text => change (·.characters text)
  | .endElement uri localName qualifiedName => do
    bindTask (endElement x uri localName qualifiedName)
    return .done
  | .endDocument => do
    bindTask (endDocument x)
    return .done
  | .parse (some text) => return .valueOrNone (← bindTask (parse x text))
  | .parse none => Action.fail (.bind .unreadable)
  | _ => return .done

def objectTask : Operation → Task Answer
  | .make label bean => do
    let id ← makeBean bean
    modify fun b => { b with labels := b.labels.insert label id }
    return .value (.object id)
  | .dump target => return .value (← makeValue target)
  | .invoke target method args types => do
    let target ← makeValue target
    let args ← makeValues args
    return .value (← ruleTask (Action.invoke target method args types))
  | .setProperty target property value => do
    let target ← makeValue target
    let v ← makeValue value
    ruleTask (Action.setProperty target property v)
    return .done
  | .isWritable target property => do
    let target ← makeValue target
    return .flag (← Action.isWritable target property)
  | .convert value type => do
    let v ← makeValue value
    return .value (← ruleTask (Action.lift ((v.convert type).mapError .call)))
  | .beanProperty target property => withBean target fun _ bean =>
      return .valueOrNone (bean.property? property)
  | .beanPropertyType target property => withBean target fun _ bean =>
      return .type (bean.propertyType? property)
  | .beanAssign target property value => withBean target fun id bean => do
      let v ← makeValue value
      ruleTask (Action.commit ((← get).heap.assign id bean property v))
      return .done
  | .beanCall target method args => withBean target fun id bean => do
      let args ← makeValues args
      return .value (← ruleTask (Action.commit ((← get).heap.call id bean method args)))
  | .beanSignature target method arity => withBean target fun _ bean =>
      return .types (bean.signature? method arity)
  | .isDynamic target => withBean target fun _ bean => return .flag bean.isDynamic
  | .inspectBean target => do
    match (← makeValue target).object? with
    | some id => ask fun b => .text (some (Inspection.objectIn b.heap id))
    | none => Action.crash
  | .fail cause => Action.fail (.rule cause)
  | _ => return .done

/-- The operations that do not contain others. -/
def operate (op : Operation) : Task Answer :=
  match op with
  | .addRule .. | .addRules .. | .keepRule .. | .setMatcher .. | .restart .. | .installGeneric ..
  | .setScope .. | .scope | .ruleNames | .clearRules | .rulesFor .. | .decorate .. | .undecorate
  | .registerClasses .. | .hasClass .. | .instantiate .. | .registerFactory .. | .hasFactory ..
  | .setExpander .. | .watch | .setOptions .. | .options | .inspect | .inspectRule .. =>
    configure x op
  | .push .. | .pop | .peek .. | .count | .root | .takeRoot | .pushFrame .. | .popFrame
  | .peekFrame .. | .extendFrame .. | .setParam .. | .pushNamed .. | .popNamed .. | .peekNamed ..
  | .replaceNamed .. | .namedState .. => stackTask op
  | .capturing | .position | .setPosition .. | .bindName .. | .unbindName .. | .namespaceOf ..
  | .registerEntity .. | .locate .. | .clear | .reset | .metrics | .startDocument
  | .startElement .. | .characters .. | .endElement .. | .endDocument | .parse .. =>
    documentTask x op
  | _ => objectTask op

/-- The answer of an operation; a failure is an answer too. -/
def settle {ε : Type} (task : Task Answer) : Action Probe ε Answer := do
  match ← task.attempt with
  | .ok answer => return answer
  | .error cause => return .failure cause

mutual

def perform : Operation → Task Answer
  | .whileHeld target operations => withBean target fun id _ => do
      modify fun b => { b with heap := b.heap.setHeld id true }
      performAll operations
      modify fun b => { b with heap := b.heap.setHeld id false }
      return .several operations.length
  | op => operate x op

/-- Carry out the operations inside another one, whatever becomes of each, and show their
replies. -/
def performAll : List Operation → Task Unit
  | [] => return ()
  | op :: rest => do
    let answer ← settle (perform op)
    modify fun b => b.display (.inner (answer, b.heap))
    performAll rest

end

/-! ### Rules -/

/-- A failure as the failure of a rule. -/
def Failure.asRuleError : Failure → RuleError
  | .rule cause => cause
  | .bind cause => .custom cause.message

/-- The operations of a scripted rule. Each of them is shown with its answer; a failure ends the
rule where the flag is set. -/
def runScript (name : String) (phase : Phase) :
    List (Operation × Bool) → Action Probe RuleError Unit
  | [] => return ()
  | (op, propagates) :: rest => do
    let answer ← settle (perform x op)
    modify fun b => b.display (.step name phase (answer, b.heap) b.place)
    match answer, propagates with
    | .failure cause, true => Action.fail (Failure.asRuleError cause)
    | _, _ => runScript name phase rest

/-- One call of a session's rule. -/
def firePhase (rule : Probe) (cb : Callback) : Action Probe RuleError Unit :=
  match rule with
  | .recording name => modify (·.display (.recorded name cb))
  | .scripted name operations => runScript x name cb.phase (operations cb.phase)
  | .silent => return ()

/-- The rules of sessions. Events may be nested in scripted rules down to a number of levels; below
them no rule comes to an end. -/
def extension : Nat → Extension Probe
  | 0 => ⟨Probe.name, fun _ _ => Action.crash⟩
  | levels + 1 => ⟨Probe.name, fun rule cb => firePhase (extension levels) rule cb⟩

/-- The deepest nesting of events. -/
def maxNesting : Nat := 100000

/-- The rules of sessions with the deepest nesting allowed. -/
def rules : Extension Probe := extension maxNesting

/-! ### Sessions -/

/-- What one operation of a session answered, where it left the binder, and what was shown and noted
meanwhile. -/
structure Report where
  reply : Reply
  place : Place
  events : List Event
  lines : List Line

/-- Carry out an operation from a clean record. A report with a crash is the last one of its
session. -/
def reportOn (b : Binder Probe) (op : Operation) : Report × Option (Binder Probe) :=
  let clean := { b with shown := [], journal := { b.journal with reversed := [] } }
  match (settle (perform rules op) : Action Probe Empty Answer) clean with
  | .ok answer after =>
    (⟨(answer, after.heap), after.place, after.shown.reverse, after.journal.lines⟩, some after)
  | .error _ after => (⟨(.crash, after.heap), after.place, [], []⟩, none)

/-- Carry out the operations of a session. -/
def run (b : Binder Probe) : List Operation → List Report
  | [] => []
  | op :: rest => match reportOn b op with
    | (report, some after) => report :: run after rest
    | (report, none) => [report]

end XmlBinding.Script
