import Std.Data.HashMap
import XmlBinding.Pattern.Regex.Automaton.Room
import XmlBinding.Pattern.Regex.Reduced

/-!
# States for a set of characters

An automaton reads bytes, so a set of characters takes a state for each byte of their spellings.
States that go on in the same way are shared, as far as a table of limited size remembers them.
Entries are found by the numbers of states, so the count depends on the states made before.
-/
namespace XmlBinding.Automaton

open Text (CodeSet)

/-- Mix a number into a hash. -/
def mix (hash : UInt64) (n : Nat) : UInt64 := (hash ^^^ UInt64.ofNat n) * 1099511628211

/-- The hash of nothing. -/
def hashStart : UInt64 := 14695981039346656037

/-- A step to another state when a byte of a range is read. -/
structure Edge where
  range : ByteRange
  target : Nat
  deriving DecidableEq

/-- The states that have been made for lists of steps. A list has one slot, which it may lose to
another list. -/
structure Shared where
  room : Room
  slots : Std.HashMap UInt64 (List Edge × Nat) := {}

/-- The state with these steps: a shared one, or a new one. -/
def Shared.state (s : Shared) (edges : List Edge) : Option (Nat × Shared) :=
  let slot := edges.foldl
    (fun h e => mix (mix (mix h e.range.first) e.range.last) e.target) hashStart % 10000
  let fresh : Option (Nat × Shared) := (s.room.make 1 (8 * edges.length)).map fun room =>
    (s.room.states, ⟨room, s.slots.insert slot (edges, s.room.states)⟩)
  match s.slots[slot]? with
  | some (known, id) => if known = edges then some (id, s) else fresh
  | none => fresh

/-- Put a spelling in front of others that are grouped by their first bytes. -/
def groupFront (range : ByteRange) (rest : List ByteRange) :
    List (ByteRange × List (List ByteRange)) → List (ByteRange × List (List ByteRange))
  | [] => [(range, [rest])]
  | (next, rests) :: groups =>
    if next = range then (next, rest :: rests) :: groups
    else (range, [rest]) :: (next, rests) :: groups

/-- Neighbouring spellings with the same first bytes, and what follows these. -/
def byFront : List (List ByteRange) → List (ByteRange × List (List ByteRange))
  | [] => []
  | [] :: others => byFront others
  | (range :: rest) :: others => groupFront range rest (byFront others)

/-- The state that reads one of some spellings and then goes to the state `done`; the states behind
it are made first. -/
def forwardState (done : Nat) :
    (depth : Nat) → List (List ByteRange) → Shared → Option (Nat × Shared)
  | 0, _, s => some (done, s)
  | depth + 1, spellings, s =>
    let step (acc : Option (List Edge × Shared)) (front : ByteRange × List (List ByteRange)) :
        Option (List Edge × Shared) := do
      let (edges, s) ← acc
      let (target, s) ←
        if front.2 = [[]] then some (done, s) else forwardState done depth front.2 s
      return (⟨front.1, target⟩ :: edges, s)
    ((byFront spellings).foldl step (some ([], s))).bind fun (edges, s) => s.state edges.reverse

/-- The states made for the last bytes of spellings, by the state behind them and the bytes. -/
structure Suffixes where
  room : Room
  slots : Std.HashMap UInt64 ((Nat × ByteRange) × Nat) := {}

/-- The state that reads a byte and goes to the state `target`: a shared one, or a new one. -/
def Suffixes.state (s : Suffixes) (target : Nat) (range : ByteRange) : Option (Nat × Suffixes) :=
  let slot := mix (mix (mix hashStart target) range.first) range.last % 1000
  let fresh : Option (Nat × Suffixes) := (s.room.make 1 0).map fun room =>
    (s.room.states, ⟨room, s.slots.insert slot ((target, range), s.room.states)⟩)
  match s.slots[slot]? with
  | some (known, id) => if known = (target, range) then some (id, s) else fresh
  | none => fresh

/-- The states that read a spelling from its end and then go to the state `target`. -/
def Suffixes.spell (target : Nat) : List ByteRange → Suffixes → Option Suffixes
  | [], s => some s
  | range :: rest, s => match s.state target range with
    | some (id, s) => Suffixes.spell id rest s
    | none => none

/-- A fork to the last bytes of all spellings. -/
def backwardStates (done : Nat) : List (List ByteRange) → Suffixes → Option Suffixes
  | [], s => some s
  | spelling :: rest, s => match Suffixes.spell done spelling s with
    | some s => match s.room.make 0 4 with
      | some room => backwardStates done rest { s with room := room }
      | none => none
    | none => none

/-- A set of characters. Those of ASCII are read by one state. -/
def makeSet (backward : Bool) (members : CodeSet) (spellings : List (List ByteRange)) (r : Room) :
    Option Room :=
  if members.isBelow 0x80 then r.make 2 (8 * members.ranges.length)
  else if backward then do
    let r' ← r.make 2 0
    return (← backwardStates (r.states + 1) spellings { room := r' }).room
  else do
    let r' ← r.make 1 0
    return (← forwardState r.states 4 spellings { room := r' }).2.room

end XmlBinding.Automaton
