import XmlBinding.Document
import XmlBinding.Registration

/-!
# The generic mapping

Every element becomes a dynamic bean that is named after it. The attributes are its properties, a
text that is not blank is its property `text`, and the beans of the elements inside are its
children. The bean of the document element hangs on a bean for the document.
-/
namespace XmlBinding

namespace Generic

variable {κ : Type}

def rules (trim : Bool) : List StandardRule :=
  [.factory .elementBean false, .setProperties ∅ false, .storeText trim,
    .link .next "addChild" none false]

/-- Replace the matcher by one that has the rules of the mapping. -/
def install (x : Extension κ) (trim : Bool) : Action κ BindError Unit := do
  modify (·.setMatcher (.textual { dialect := .glob }))
  (rules trim).forM (addStandard x "*")

/-- What a mapped document consists of: the object of the document element, if there is one, with
all objects and with the metrics of the run. -/
structure Mapping where
  root : Option ObjectId
  heap : Heap
  metrics : Metrics

/-- The first child of an object, if that child is an object. -/
def firstChild? (h : Heap) (id : ObjectId) : Option ObjectId :=
  match h.bean? id with
  | some (.dynamic bean) => bean.children.head?.bind Value.object?
  | _ => none

def mapDocument (text : String) : Action Empty BindError (Option ObjectId) := do
  install .none (← get).options.trimText
  let document ← modifyGet fun b =>
    let (id, heap) := b.heap.alloc (.dynamic { typeName := "#document" })
    (id, { b with heap }.push (.object id))
  discard (parse .none text)
  return firstChild? (← get).heap document

def run (options : Options) (text : String) : Except (Halt BindError) Mapping :=
  match mapDocument text { options } with
  | .ok root b => .ok ⟨root, b.heap, b.metrics⟩
  | .error halt _ => .error halt

/-! ### A summary of the elements -/

def countNames (names : List String) : Dict String Nat :=
  names.foldl (fun counts name => counts.insert name ((counts.get? name).getD 0 + 1)) ∅

/-- The first of the deepest elements. -/
def deepest (lines : List ElementTrace) : Option ElementTrace :=
  lines.foldl (fun best line => match best with
    | none => if 0 < line.depth then some line else none
    | some b => if b.depth < line.depth then some line else best) none

/-- A mapped document with the number of elements of each name and the deepest path. -/
structure Summary where
  mapping : Mapping
  counts : Dict String Nat
  deepestPath : String

def Mapping.summary (m : Mapping) : Summary :=
  { mapping := m
    counts := countNames (m.metrics.trace.map fun line => StandardRule.lastSegment line.path)
    deepestPath := ((deepest m.metrics.trace).map (·.path)).getD "" }

def runVerbose (options : Options) (text : String) : Except (Halt BindError) Summary :=
  (run { options with collectTrace := true } text).map Mapping.summary

end Generic

end XmlBinding
