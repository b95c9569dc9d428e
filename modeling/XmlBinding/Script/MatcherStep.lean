import XmlBinding.Inspection
import XmlBinding.Matcher

/-!
# Steps on a matcher

The operations on a matcher as data, and their answers.
-/
namespace XmlBinding

inductive MatcherKind
  | plain
  | extended
  | textual (dialect : Dialect)
  | withDefaults (inner : MatcherKind)

def MatcherKind.make {ρ : Type} : MatcherKind → Matcher ρ
  | .plain => .plain {}
  | .extended => .extended {}
  | .textual dialect => .textual { dialect }
  | .withDefaults inner => .wrap inner.make

inductive MatcherStep (ρ : Type)
  | add (pattern : String) (rule : ρ)
  | addDefault (rule : ρ)
  | setScope (scope : Option String)
  | scope
  | clear
  | rulesFor (uri path : String)
  | rules
  | setDialect (dialect : Dialect)
  | entries
  | defaults
  | takeDecorated
  | inspect

inductive MatcherAnswer
  | done
  | refused (cause : PatternError)
  | scope (scope : Option String)
  | names (ns : List String)
  | entries (es : List (Entry String))
  | defaults (own inner : List String)
  | flag (b : Bool)
  | texts (ts : List String)
  | text (t : String)
  /-- The step did not come to an end. -/
  | crash

namespace Matcher

variable {ρ : Type}

/-- The registrations of a matcher that has its own. -/
def entries : Matcher ρ → List (Entry ρ)
  | .plain t => t.entries
  | .extended t => t.entries
  | .textual t => t.registered.map (·.1)
  | _ => []

/-- The default rules, and the rules of the matcher inside. -/
def defaultsAndInner : Matcher ρ → List ρ × List ρ
  | .withDefaults inner defaults _ => (defaults, inner.rules)
  | m => ([], m.rules)

/-- The complete text of the registrations. -/
def inspect (name : ρ → String) : Matcher ρ → MatcherAnswer
  | .textual t => .text (Inspection.patterns (t.registered.map (·.1.pattern)))
  | m => .texts (m.entries.map fun e => Inspection.entry e.pattern e.scope (name e.rule) e.order)

def step (name : ρ → String) (m : Matcher ρ) : MatcherStep ρ → MatcherAnswer × Matcher ρ
  | .add pattern rule => match m.add pattern rule with
    | .ok m => (.done, m)
    | .error cause => (.refused cause, m)
  | .addDefault rule => (.done, m.addDefault rule)
  | .setScope scope => (.done, m.setScope scope)
  | .scope => (.scope m.scope, m)
  | .clear => (.done, m.clear)
  | .rulesFor uri path => match m.rulesFor? uri path.toList "" [] with
    | some found => (.names (found.map name), m)
    | none => (.crash, m)
  | .rules => (.names (m.rules.map name), m)
  | .setDialect dialect => (.done, m.setDialect dialect)
  | .entries =>
    (.entries (m.entries.map fun e => ⟨e.pattern, e.scope, name e.rule, e.order⟩), m)
  | .defaults =>
    let (own, inner) := m.defaultsAndInner
    (.defaults (own.map name) (inner.map name), m)
  | .takeDecorated => match m.undecorated? with
    | some inner => (.flag true, inner)
    | none => (.flag false, m)
  | .inspect => (m.inspect name, m)

/-- Carry out steps up to the first that does not come to an end, and answer them all. -/
def runSteps (name : ρ → String) (m : Matcher ρ) : List (MatcherStep ρ) → List MatcherAnswer
  | [] => []
  | s :: rest => match m.step name s with
    | (.crash, _) => [.crash]
    | (answer, m) => answer :: m.runSteps name rest

end Matcher

end XmlBinding
