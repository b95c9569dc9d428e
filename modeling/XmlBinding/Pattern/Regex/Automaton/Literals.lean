import XmlBinding.Pattern.Regex.Automaton.Room
import XmlBinding.Pattern.Regex.Reduced

/-!
# States for a choice between literals

Literals share the states for what they begin with, as long as none of them ends there.
-/
namespace XmlBinding.Automaton

/-- A tree of the bytes that some literals go on with. Where a literal ends, the branches so far are
closed, and those of later literals start anew. -/
inductive LiteralTree
  | node (closed : List (List (Nat × LiteralTree))) (open_ : List (Nat × LiteralTree))

namespace LiteralTree

def leaf : LiteralTree := .node [] []

/-- Change the branch for a byte, which is made if there is none. -/
def update (byte : Nat) (f : LiteralTree → LiteralTree) :
    List (Nat × LiteralTree) → List (Nat × LiteralTree)
  | [] => [(byte, f leaf)]
  | (b, t) :: rest => if b = byte then (b, f t) :: rest else (b, t) :: update byte f rest

/-- Add a literal. -/
def insert : List Nat → LiteralTree → LiteralTree
  | [], .node closed open_ =>
    if open_.isEmpty && !closed.isEmpty && closed.all List.isEmpty then .node closed open_
    else .node (closed ++ [open_]) []
  | b :: rest, .node closed open_ => .node closed (update b (insert rest) open_)

mutual

/-- The states and other bytes that a tree takes: a fork to the groups of branches, where the end is
one more way between two groups, and one state for each group that is not empty. A tree without
branches is the end. -/
def cost : LiteralTree → Nat × Nat
  | .node closed open_ =>
    if open_.isEmpty && closed.all List.isEmpty then (0, 0)
    else
      let (s, x) := groupsCost closed
      let (s', x') := groupCost open_
      (s + s' + 1, x + x' + 4 * closed.length)

def groupsCost : List (List (Nat × LiteralTree)) → Nat × Nat
  | [] => (0, 0)
  | g :: rest =>
    let (s, x) := groupCost g
    let (s', x') := groupsCost rest
    (s + s', x + x')

/-- A group takes a state, which lists its steps if there are several, and a way of the fork. -/
def groupCost : List (Nat × LiteralTree) → Nat × Nat
  | [] => (0, 0)
  | [(_, t)] => let (s, x) := t.cost; (s + 1, x + 4)
  | (_, t) :: rest =>
    let (s, x) := t.cost
    let (s', x') := branchesCost rest
    (s + s' + 1, x + x' + 4 + 8 * (rest.length + 1))

def branchesCost : List (Nat × LiteralTree) → Nat × Nat
  | [] => (0, 0)
  | (_, t) :: rest =>
    let (s, x) := t.cost
    let (s', x') := branchesCost rest
    (s + s', x + x')

end

end LiteralTree

/-- The bytes of a literal. -/
def bytesOf (text : List Char) : List Nat :=
  text.flatMap fun c => (String.utf8EncodeChar c).map UInt8.toNat

/-- The texts of expressions that are all literals. -/
def literals? (rs : List Reduced) : Option (List (List Char)) :=
  rs.mapM fun
    | .literal text => some text
    | _ => none

/-- A choice between literals, which share the states for what they begin with. -/
def makeLiterals (backward : Bool) (texts : List (List Char)) (r : Room) : Option Room :=
  let spell (text : List Char) := if backward then (bytesOf text).reverse else bytesOf text
  let tree := texts.foldl (fun t text => LiteralTree.insert (spell text) t) LiteralTree.leaf
  r.make (tree.cost.1 + 1) tree.cost.2

end XmlBinding.Automaton
