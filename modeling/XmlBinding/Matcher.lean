import XmlBinding.Matcher.Plain
import XmlBinding.Matcher.Extended
import XmlBinding.Matcher.Foreign
import XmlBinding.Matcher.Textual

/-!
# Matchers

A matcher keeps registered rules and says which of them apply to an element. Three kinds hold
registrations of their own, and users may bring others. A matcher with defaults answers with its
default rules where the one inside finds nothing. A decorated matcher adds one rule to what the one
inside finds, for some elements or for all, and can be taken off again.
-/
namespace XmlBinding

inductive Matcher (ρ : Type)
  | plain (table : Table ρ)
  | extended (table : Table ρ)
  | textual (patterns : Textual ρ)
  | foreign (m : Foreign ρ) (history : List (Registration ρ))
  | withDefaults (inner : Matcher ρ) (defaults all : List ρ)
  | decorated (inner : Matcher ρ) (place : Option (List Char)) (extra : ρ)

namespace Matcher

variable {ρ : Type}

instance : Inhabited (Matcher ρ) := ⟨.plain {}⟩

/-- Every rule that takes part, in the order of registration. -/
def rules : Matcher ρ → List ρ
  | .plain t => t.rules
  | .extended t => t.rules
  | .textual t => t.rules
  | .foreign m history => m.rules history
  | .withDefaults _ _ all => all
  | .decorated inner _ _ => inner.rules

def wrap (inner : Matcher ρ) : Matcher ρ := .withDefaults inner [] inner.rules

/-- Register a rule. A refused pattern changes nothing. -/
def add : Matcher ρ → String → ρ → Except PatternError (Matcher ρ)
  | .plain t, pattern, rule => (Plain.add t pattern rule).map .plain
  | .extended t, pattern, rule => (Extended.add t pattern rule).map .extended
  | .textual t, pattern, rule => (t.add pattern rule).map .textual
  | .foreign m history, pattern, rule => (m.add history pattern rule).map (.foreign m)
  | .withDefaults inner defaults all, pattern, rule =>
    (inner.add pattern rule).map (.withDefaults · defaults (all ++ [rule]))
  | .decorated inner place extra, pattern, rule =>
    (inner.add pattern rule).map (.decorated · place extra)

def addDefault : Matcher ρ → ρ → Matcher ρ
  | .withDefaults inner defaults all, rule =>
    .withDefaults inner (defaults ++ [rule]) (all ++ [rule])
  | other, _ => other

def clear : Matcher ρ → Matcher ρ
  | .plain t => .plain t.clear
  | .extended t => .extended t.clear
  | .textual t => .textual { t with registered := [] }
  | .foreign m history => .foreign m (.clear :: history)
  | .withDefaults inner _ _ => .withDefaults inner.clear [] []
  | .decorated inner place extra => .decorated inner.clear place extra

/-- Whether a decoration reaches the element at a path: everywhere, or at the direct children of an
element whose path with a slash behind it is `place`. -/
def reaches (place : Option (List Char)) (path : List Char) : Bool :=
  match place with
  | none => true
  | some front => front.isPrefixOf path && !(path.drop front.length).contains '/'

/-- The rules for an element with this namespace, path, name and attributes; `none` where a pattern
has no part to compare with a path. -/
def rulesFor? (m : Matcher ρ) (uri : String) (path : List Char) (name : String)
    (attrs : Attributes) : Option (List ρ) :=
  match m with
  | .plain t => some (Plain.rulesFor t uri path)
  | .extended t => Extended.rulesFor? t uri path
  | .textual t => some (t.rulesFor path)
  | .foreign m history => some (m.rulesFor history uri path name attrs)
  | .withDefaults inner defaults _ => match inner.rulesFor? uri path name attrs with
    | some [] => some defaults
    | found => found
  | .decorated inner place extra =>
    (inner.rulesFor? uri path name attrs).map fun found =>
      if reaches place path then found ++ [extra] else found

/-- The namespace of the registrations to come; `none` stands for all. -/
def scope : Matcher ρ → Option String
  | .plain t => t.scope
  | .extended t => t.scope
  | .textual t => t.scope
  | .foreign m history => m.scope history
  | .withDefaults inner _ _ => inner.scope
  | .decorated inner _ _ => inner.scope

/-- Choose the namespace of the registrations to come. -/
def setScope (scope : Option String) : Matcher ρ → Matcher ρ
  | .plain t => .plain { t with scope }
  | .extended t => .extended { t with scope }
  | .textual t => .textual { t with scope }
  | .foreign m history => .foreign m (.setScope scope :: history)
  | .withDefaults inner defaults all => .withDefaults (inner.setScope scope) defaults all
  | .decorated inner place extra => .decorated (inner.setScope scope) place extra

/-- The matcher inside the outermost decoration. -/
def undecorated? : Matcher ρ → Option (Matcher ρ)
  | .decorated inner _ _ => some inner
  | _ => none

/-- Choose the dialect of the patterns to come, where patterns are written in one. -/
def setDialect (d : Dialect) : Matcher ρ → Matcher ρ
  | .textual t => .textual { t with dialect := d }
  | other => other

end Matcher

end XmlBinding
