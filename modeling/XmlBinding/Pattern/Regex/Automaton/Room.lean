/-!
# The room of an automaton

The states of an automaton are made one after the other, and what each takes is known, so the room
is found by counting.
-/
namespace XmlBinding.Automaton

/-- The states made so far and the bytes that they take beside the fixed part of each. -/
structure Room where
  states : Nat := 0
  extra : Nat := 0

namespace Room

/-- The most bytes that an automaton may take. -/
def limit : Nat := 10485760

/-- Go on if the room is not too large. -/
def check (r : Room) : Option Room := if 32 * r.states + r.extra ≤ limit then some r else none

/-- Make states that take some bytes beside their fixed part. -/
def make (r : Room) (states extra : Nat) : Option Room :=
  check ⟨r.states + states, r.extra + extra⟩

end Room

/-- Part of an automaton: the room taken once it is made, and whether it ends in a fork, which takes
more room for every state that it leads to. -/
structure Built where
  room : Room
  isFork : Bool := false

/-- Lead from the end of a part to another state. -/
def Built.link (b : Built) : Option Room :=
  if b.isFork then b.room.make 0 4 else some b.room

/-- Where a part that ends in a fork is made before `r`, lead from it to another state. -/
def linkFrom (isFork : Bool) (r : Room) : Option Room := Built.link ⟨r, isFork⟩

end XmlBinding.Automaton
