import XmlBinding.Matcher.Table
import XmlBinding.Pattern.Glob
import XmlBinding.Pattern.Regex.Reader

/-!
# Patterns on the whole path

Every registered pattern that accepts the path as a text contributes its rules. The patterns do not
compete, and the namespaces of elements play no part.
-/
namespace XmlBinding

inductive Dialect
  | glob
  | regex
  deriving DecidableEq

/-- A pattern that has been read. -/
inductive Compiled
  | glob (tokens : List Glob.Token)
  | regex (r : Regex)

/-- Read a pattern. A regular expression has to match the path from end to end. -/
def Dialect.compile? (d : Dialect) (pattern : List Char) : Option Compiled :=
  match d with
  | .glob => (Glob.tokens? true pattern).map .glob
  | .regex => (Regex.readAnchored? pattern).map .regex

def Compiled.accepts (c : Compiled) (path : List Char) : Bool :=
  match c with
  | .glob tokens => Glob.accepts tokens path
  | .regex r => r.occursIn path

structure Textual (ρ : Type) where
  /-- The dialect of the registrations to come. -/
  dialect : Dialect
  registered : List (Entry ρ × Compiled) := []
  scope : Option String := none

namespace Textual

variable {ρ : Type}

/-- Register a rule under a pattern that can be read. -/
def add (t : Textual ρ) (pattern : String) (rule : ρ) : Except PatternError (Textual ρ) :=
  if pattern.isEmpty then .error .empty
  else match t.dialect.compile? pattern.toList with
    | some c =>
      let e : Entry ρ := ⟨pattern, t.scope, rule, t.registered.length⟩
      .ok { t with registered := t.registered ++ [(e, c)] }
    | none => .error (.notAnExpression pattern)

def rulesFor (t : Textual ρ) (path : List Char) : List ρ :=
  (t.registered.filter (·.2.accepts path)).map (·.1.rule)

def rules (t : Textual ρ) : List ρ := t.registered.map (·.1.rule)

end Textual

end XmlBinding
