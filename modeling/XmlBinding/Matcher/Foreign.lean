import XmlBinding.Attribute
import XmlBinding.Pattern.Error

/-!
# Matchers of the user's own kind

Such a matcher is known by its answers. They depend on everything that was done to it before.
-/
namespace XmlBinding

/-- What is done to a matcher. -/
inductive Registration (ρ : Type)
  | add (pattern : String) (rule : ρ)
  | setScope (scope : Option String)
  | clear

/-- The answers of a matcher, given what was done to it, the last thing first. -/
structure Foreign (ρ : Type) where
  refuses : List (Registration ρ) → String → ρ → Option PatternError
  rulesFor : List (Registration ρ) → String → List Char → String → Attributes → List ρ
  rules : List (Registration ρ) → List ρ
  scope : List (Registration ρ) → Option String

/-- Register a rule, unless the matcher refuses it. -/
def Foreign.add {ρ : Type} (m : Foreign ρ) (history : List (Registration ρ)) (pattern : String)
    (rule : ρ) : Except PatternError (List (Registration ρ)) :=
  match m.refuses history pattern rule with
  | some cause => .error cause
  | none => .ok (.add pattern rule :: history)

/-- A matcher that has the same rules for every element and takes no others. -/
def Foreign.always {ρ : Type} (rules : List ρ) : Foreign ρ where
  refuses _ pattern _ := some (.notAnExpression pattern)
  rulesFor _ _ _ _ _ := rules
  rules _ := rules
  scope _ := none

end XmlBinding
