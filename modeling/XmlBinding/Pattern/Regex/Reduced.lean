import XmlBinding.Pattern.Regex

/-!
# Reduced expressions

The form of an expression that an automaton is built from. Characters that follow each other are
joined, sequences and choices are flat, a choice between characters is a set, what all branches of a
choice begin with stands in front of it, and what cannot use up a character is not repeated.
-/
namespace XmlBinding

open Text (CodeSet)

/-- The bytes from `first` to `last`. -/
structure ByteRange where
  first : Nat
  last : Nat
  deriving DecidableEq

namespace ByteRange

/-- The ranges of bytes between the spellings of two characters that only differ where every byte is
allowed behind. -/
def between (first last : Nat) : List ByteRange :=
  let bytes (n : Nat) := (String.utf8EncodeChar (Char.ofNat n)).map UInt8.toNat
  List.zipWith ByteRange.mk (bytes first) (bytes last)

/-- Cut the code points from `first` to `last` so that the spellings in each part are those between
its ends; the numbers say how many binary digits the last byte, the last two bytes and so on
hold. -/
def cut (first last : Nat) : List Nat → List (List ByteRange)
  | [] => [between first last]
  | digits :: wider =>
    let block (n : Nat) := n >>> digits
    let lower (n : Nat) := n <<< digits
    if block first = block last then [between first last]
    else
      let isAligned := first = lower (block first)
      let start := if isAligned then first else lower (block first + 1)
      let front := if isAligned then [] else [between first (start - 1)]
      if block start = block last then front ++ [between start last]
      else if last + 1 = lower (block last + 1) then front ++ cut start last wider
      else
        let tail := lower (block last)
        front ++ cut start (tail - 1) wider ++ [between tail last]

/-- The code points whose spelling has one length, without surrogates, and where such spellings
have to be cut. -/
def lengths : List (Nat × Nat × List Nat) :=
  [(0, 0x7F, []), (0x80, 0x7FF, [6]), (0x800, 0xD7FF, [6, 12]), (0xE000, 0xFFFF, [6, 12]),
   (0x10000, 0x10FFFF, [6, 12, 18])]

/-- The spellings of the characters of a set as sequences of ranges of bytes, in order. -/
def spellings (s : CodeSet) : List (List ByteRange) :=
  s.ranges.flatMap fun r => lengths.flatMap fun (low, high, cuts) =>
    if max r.1 low ≤ min r.2 high then cut (max r.1 low) (min r.2 high) cuts else []

end ByteRange

/-- A reduced expression. A set carries the spellings of its characters. -/
inductive Reduced
  | empty
  | literal (text : List Char)
  | set (members : CodeSet) (spellings : List (List ByteRange))
  | look (condition : Look)
  | seq (parts : List Reduced)
  | either (branches : List Reduced)
  | times (least : Nat) (most : Option Nat) (greedy : Bool) (inner : Reduced)
  | group (inner : Reduced)

namespace Reduced

/-- A set of characters; a set of one is that character. -/
def ofSet (s : CodeSet) : Reduced :=
  match s.sole? with
  | some n => .literal [Char.ofNat n]
  | none => .set s (ByteRange.spellings s)

mutual

/-- No match uses up a character. -/
def isZeroWidth : Reduced → Bool
  | .empty => true
  | .literal _ => false
  | .set _ _ => false
  | .look _ => true
  | .seq parts => areZeroWidth parts
  | .either branches => areZeroWidth branches
  | .times _ _ _ inner => inner.isZeroWidth
  | .group inner => inner.isZeroWidth

def areZeroWidth : List Reduced → Bool
  | [] => true
  | r :: rest => r.isZeroWidth && areZeroWidth rest

end

mutual

/-- The least number of characters that a match uses up, as far as single characters are told apart
from none; `none` where a part has no matches. -/
def least? : Reduced → Option Nat
  | .empty => some 0
  | .literal text => some text.length
  | .set members _ => if members.isEmpty then none else some 1
  | .look _ => some 0
  | .seq parts => leastOfAll? parts
  | .either branches => leastOfAny? branches
  | .times least _ _ inner => inner.least?.map (· * least)
  | .group inner => inner.least?

def leastOfAll? : List Reduced → Option Nat
  | [] => some 0
  | r :: rest => do return (← r.least?) + (← leastOfAll? rest)

def leastOfAny? : List Reduced → Option Nat
  | [] => none
  | [r] => r.least?
  | r :: rest => do return min (← r.least?) (← leastOfAny? rest)

end

mutual

/-- Whether two expressions are equal. No two groups are, as each has a number of its own. -/
def same : Reduced → Reduced → Bool
  | .empty, .empty => true
  | .literal a, .literal b => a == b
  | .set a _, .set b _ => a == b
  | .look a, .look b => a == b
  | .seq as, .seq bs => allSame as bs
  | .either as, .either bs => allSame as bs
  | .times l m g a, .times l' m' g' b => l == l' && m == m' && g == g' && a.same b
  | _, _ => false

def allSame : List Reduced → List Reduced → Bool
  | [], [] => true
  | a :: as, b :: bs => a.same b && allSame as bs
  | _, _ => false

end

/-- The parts of a sequence that stand in another one. -/
def parts : Reduced → List Reduced
  | .empty => []
  | .seq parts => parts
  | r => [r]

/-- Join literals that follow each other. -/
def joined : List Reduced → List Reduced
  | [] => []
  | .literal a :: rest => match joined rest with
    | .literal b :: others => .literal (a ++ b) :: others
    | others => .literal a :: others
  | r :: rest => r :: joined rest

def sequence (rs : List Reduced) : Reduced :=
  match joined (rs.flatMap parts) with
  | [] => .empty
  | [r] => r
  | rs => .seq rs

/-- The branches of a choice that is a branch of another one. -/
def branches : Reduced → List Reduced
  | .either branches => branches
  | r => [r]

/-- The character of an expression that is one. -/
def char? : Reduced → Option Nat
  | .literal [c] => some c.toNat
  | _ => none

/-- The characters of an expression that is a set. -/
def set? : Reduced → Option CodeSet
  | .set members _ => some members
  | _ => none

/-- A choice between characters or between sets is a set. -/
def choiceSet? (rs : List Reduced) : Option CodeSet :=
  match rs.mapM char? with
  | some points => some (.ofList points)
  | none => (rs.mapM set?).map .unionAll

/-- The number of parts that two sequences have in common at their front. -/
def commonFront : List Reduced → List Reduced → Nat
  | a :: as, b :: bs => if a.same b then commonFront as bs + 1 else 0
  | _, _ => 0

/-- The parts that all branches begin with, if all of them are sequences, and what follows them in
each branch. -/
def liftFront? (rs : List Reduced) : Option (List Reduced × List (List Reduced)) := do
  let seqs ← rs.mapM fun
    | .seq parts => some parts
    | _ => none
  let first ← seqs.head?
  let n := seqs.foldl (fun n s => min n (commonFront first s)) first.length
  if n = 0 then none else some (first.take n, seqs.map (·.drop n))

/-- One of several expressions, where nothing is left to put in front. -/
def plainChoice (rs : List Reduced) : Reduced :=
  match rs.flatMap branches with
  | [] => ofSet .empty
  | [r] => r
  | rs => match choiceSet? rs with
    | some s => ofSet s
    | none => .either rs

/-- One of several expressions. What follows a common front of all branches has none any more. -/
def choice (rs : List Reduced) : Reduced :=
  match plainChoice rs with
  | .either rs => match liftFront? rs with
    | some (front, rests) => sequence (front ++ [plainChoice (rests.map sequence)])
    | none => .either rs
  | r => r

/-- Repeat an expression. One that uses up nothing is repeated at most once. -/
def repeated (least : Nat) (most : Option Nat) (greedy : Bool) (r : Reduced) : Reduced :=
  let (least, most) :=
    if r.isZeroWidth then (min least 1, some (min (most.getD 1) 1)) else (least, most)
  if most = some 0 then .empty
  else if least = 1 ∧ most = some 1 then r
  else .times least most greedy r

mutual

def ofRegex : Regex → Reduced
  | .empty => .empty
  | .char c => .literal [c]
  | .set members => ofSet members
  | .look condition => .look condition
  | .seq parts => sequence (ofAll parts)
  | .either branches => choice (ofAll branches)
  | .times least most greedy inner => repeated least most greedy (ofRegex inner)
  | .group captures inner => if captures then .group (ofRegex inner) else ofRegex inner

def ofAll : List Regex → List Reduced
  | [] => []
  | r :: rest => ofRegex r :: ofAll rest

end

end Reduced

end XmlBinding
