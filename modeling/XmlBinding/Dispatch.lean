import XmlBinding.Rule.Effect

/-!
# Dispatch

The events of a document and what they call. A start tag calls the rules of its element in their
order; the end tag calls them in the same order with the element's text and then in the opposite
order. While a node is captured, the events inside it call no rule. The end of the document calls
every registered rule once more. The first rule that fails ends the event at once.
-/
namespace XmlBinding

variable {κ : Type}

def RuleRef.name (x : Extension κ) (ref : RuleRef κ) : String :=
  match ref.rule with
  | .standard rule => rule.name
  | .custom rule => x.name rule

def RuleRef.fire (x : Extension κ) (ref : RuleRef κ) (cb : Callback) : Action κ RuleError Unit :=
  match ref.rule with
  | .standard rule => rule.fire cb
  | .custom rule => x.fire rule cb

def Metrics.countCall (m : Metrics) : Phase → Metrics
  | .start => { m with starts := m.starts + 1 }
  | .body => { m with bodies := m.bodies + 1 }
  | .close => { m with closes := m.closes + 1 }
  | .finish => { m with finishes := m.finishes + 1 }

/-- The local name of an element, or its qualified name where there is none. -/
def elementName (localName qualifiedName : String) : String :=
  if localName.isEmpty then qualifiedName else localName

namespace Binder

def report (b : Binder κ) (rule : String) (phase : Phase) (cause : RuleError) : BindError :=
  .rule { rule, phase, path := b.path, position := b.position, cause }

/-- A call is about to be made: it is noted, counted and kept in mind. -/
def recordCall (x : Extension κ) (cb : Callback) (ref : RuleRef κ) (b : Binder κ) : Binder κ :=
  let b := if cb.phase = .finish then b else
    b.note .trace .rules (ref.name x ++ "." ++ cb.phase.label ++ "() at '" ++ b.path ++ "'")
  { b with metrics := b.metrics.countCall cb.phase, calls := ⟨ref, cb⟩ :: b.calls }

/-- An element opens: its name joins the path, and the text around it is put aside. -/
def enter (b : Binder κ) (name : String) : Binder κ :=
  let path := if b.path.isEmpty then name else b.path ++ "/" ++ name
  let b := { b with
    outerTexts := b.text :: b.outerTexts, text := "", outerPaths := b.path :: b.outerPaths, path }
  b.note .debug .dispatch ("start '" ++ path ++ "'")

/-- The rules of the open element are found. -/
def noteRules (x : Extension κ) (b : Binder κ) (found : List (RuleRef κ)) : Binder κ :=
  let depth := b.depth + 1
  let line := if b.options.collectTrace then
      some { path := b.path, depth, rules := found.map (·.name x) }
    else none
  { b with
    matched := found :: b.matched
    metrics := b.metrics.record depth (!found.isEmpty) line }

/-- The attributes that rules see. -/
def expandAttributes (b : Binder κ) (attrs : Attributes) : Attributes :=
  match b.substitutor with
  | some s => s.attributes attrs
  | none => attrs

/-- The text that rules see. -/
def expandText (b : Binder κ) (text : String) : String :=
  match b.substitutor with
  | some s => s.text text
  | none => text

/-- The innermost open element begins to close, and the rules of those around it stay. -/
def unmatch (b : Binder κ) (outer : List (List (RuleRef κ))) : Binder κ :=
  { b with matched := outer }.note .debug .dispatch ("end '" ++ b.path ++ "'")

/-- The text of the element around goes on. -/
def resumeText (b : Binder κ) : Binder κ :=
  { b with text := b.outerTexts.headD "", outerTexts := b.outerTexts.tail }

/-- The element closes: its name leaves the path. -/
def leave (b : Binder κ) : Binder κ :=
  match b.outerPaths with
  | [] => b
  | path :: outer => { b with path, outerPaths := outer }

/-- Text inside the innermost open element, or inside the captured node. -/
def characters (b : Binder κ) (text : String) : Binder κ :=
  match b.capture with
  | some c => { b with capture := some (c.text text) }
  | none => { b with text := b.text ++ text }

/-- The objects that a document leaves above the first one are worth a warning. -/
def noteLeftover (b : Binder κ) : Binder κ :=
  if b.stack.length > 1 then
    b.note .warn .stack
      ("document ended with " ++ toString b.stack.length ++ " objects on the stack")
  else b

def startDocument (b : Binder κ) : Binder κ :=
  { b.note .debug .dispatch "start document" with metrics := {}, calls := [] }

end Binder

def callRule (x : Extension κ) (cb : Callback) (ref : RuleRef κ) : Action κ BindError Unit := do
  modify (Binder.recordCall x cb ref)
  match ← (ref.fire x cb).attempt with
  | .ok () => return ()
  | .error cause =>
    let b ← get
    Action.note .error .dispatch (ref.name x ++ "." ++ cb.phase.label ++ "() failed at '" ++
      b.path ++ "': " ++ cause.message)
    Action.fail (b.report (ref.name x) cb.phase cause)

/-- Call rules one after the other, up to the first that fails. -/
def callRules (x : Extension κ) (cb : Callback) (refs : List (RuleRef κ)) :
    Action κ BindError Unit :=
  refs.forM (callRule x cb)

/-- Find the rules of an element that has just opened, and call them. -/
def openElement (x : Extension κ) (uri name : String) (attrs : Attributes) :
    Action κ BindError Unit := do
  modify (·.enter name)
  let b ← get
  match b.matcher.rulesFor? uri b.path.toList name attrs with
  | none => Action.crash
  | some found =>
    let b := b.noteRules x found
    set b
    callRules x (.start uri name (b.expandAttributes attrs)) found

def startElement (x : Extension κ) (uri localName qualifiedName : String) (attrs : Attributes) :
    Action κ BindError Unit := do
  let b ← get
  let name := elementName localName qualifiedName
  match b.capture with
  | some c => set { b with capture := some (c.start uri name attrs) }
  | none => openElement x uri name attrs

/-- The captured node is complete and goes on the stack. -/
def Binder.endCapture (b : Binder κ) : Binder κ :=
  match b.capture with
  | some c => { b with capture := none }.push (.node c.finish)
  | none => b

/-- Close the innermost open element and call its rules. -/
def closeElement (x : Extension κ) (uri name : String) : Action κ BindError Unit := do
  let b ← get
  match b.matched with
  | [] => Action.fail (.unbalanced name)
  | found :: outer =>
    let b := b.unmatch outer
    set { b with text := "" }
    callRules x (.body uri name (b.expandText b.text)) found
    modify (·.resumeText)
    callRules x (.close uri name) found.reverse
    modify (·.leave)

/-- An end tag. Inside a captured node it closes an element of the node; the end tag of the captured
element itself completes the node. -/
def endElement (x : Extension κ) (uri localName qualifiedName : String) :
    Action κ BindError Unit := do
  let b ← get
  match b.capture.bind (·.close?) with
  | some c => set { b with capture := some c }
  | none =>
    set b.endCapture
    closeElement x uri (elementName localName qualifiedName)

/-- Leave out the rules that were seen before. -/
def unseenRules (seen : List Nat) : List (RuleRef κ) → List (RuleRef κ)
  | [] => []
  | ref :: rest =>
    if seen.contains ref.id then unseenRules seen rest
    else ref :: unseenRules (ref.id :: seen) rest

/-- The rules, each of them once, in the order of their first registration. -/
def distinctRules (refs : List (RuleRef κ)) : List (RuleRef κ) := unseenRules [] refs

/-- A document ends: every registered rule is called once, and the state of the document is
forgotten whether or not one of them fails. -/
def endDocument (x : Extension κ) : Action κ BindError Unit := do
  modify Binder.noteLeftover
  let result ← (callRules x .finish (distinctRules (← get).matcher.rules)).attempt
  modify fun b => (b.note .debug .dispatch "end document").clear
  Action.lift result

end XmlBinding
