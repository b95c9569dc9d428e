/-!
# Journal

The messages that a run leaves behind, each with its level and the part of the library it comes
from. A journal keeps the messages up to a level; with no level it keeps none.
-/
namespace XmlBinding

/-- From the gravest to the most detailed. -/
inductive Level
  | error
  | warn
  | info
  | debug
  | trace
  deriving DecidableEq, Inhabited

def Level.rank : Level → Nat
  | .error => 0
  | .warn => 1
  | .info => 2
  | .debug => 3
  | .trace => 4

/-- The part of the library that a message comes from. -/
inductive Channel
  | dispatch
  | rules
  | stack
  deriving DecidableEq, Inhabited

structure Line where
  level : Level
  channel : Channel
  text : String

structure Journal where
  limit : Option Level := none
  /-- The last message first. -/
  reversed : List Line := []

namespace Journal

/-- Whether messages of a level are kept. -/
def keeps (j : Journal) (level : Level) : Bool :=
  match j.limit with
  | some limit => level.rank ≤ limit.rank
  | none => false

def add (j : Journal) (line : Line) : Journal := { j with reversed := line :: j.reversed }

def lines (j : Journal) : List Line := j.reversed.reverse

end Journal

end XmlBinding
