/-!
# Metrics

What one run of a document adds up to: elements, calls of rules by phase, the greatest depth and, if
wanted, one line for every element.
-/
namespace XmlBinding

/-- An element and the names of its rules. -/
structure ElementTrace where
  path : String
  depth : Nat
  rules : List String
  deriving DecidableEq

structure Metrics where
  elements : Nat := 0
  matched : Nat := 0
  starts : Nat := 0
  bodies : Nat := 0
  closes : Nat := 0
  finishes : Nat := 0
  maxDepth : Nat := 0
  /-- The last element first. -/
  reversedTrace : List ElementTrace := []
  deriving DecidableEq

namespace Metrics

/-- The share of elements for which there was a rule. -/
def ratio (m : Metrics) : Float :=
  if m.elements = 0 then 0 else Float.ofNat m.matched / Float.ofNat m.elements

def trace (m : Metrics) : List ElementTrace := m.reversedTrace.reverse

/-- Count an element; its line is kept where one is given. -/
def record (m : Metrics) (depth : Nat) (isMatched : Bool) (line : Option ElementTrace) : Metrics :=
  { m with
    elements := m.elements + 1
    matched := if isMatched then m.matched + 1 else m.matched
    maxDepth := max m.maxDepth depth
    reversedTrace := line.toList ++ m.reversedTrace }

end Metrics

/-- Choices that hold for all documents. -/
structure Options where
  namespaceAware : Bool := true
  trimText : Bool := true
  collectTrace : Bool := false
  deriving DecidableEq

end XmlBinding
