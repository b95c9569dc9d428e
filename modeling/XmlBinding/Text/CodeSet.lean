/-!
# Sets of characters

A set of code points is the ascending list of the places where membership changes: from the first
place on a code point is in the set, from the second on it is not, and so on. Every set has exactly
one such list, so equal sets are equal values, and the set operations are one walk over two lists.
Tables are written as hexadecimal ranges.
-/
namespace XmlBinding.Text

/-- A set of code points by the places where membership changes. -/
structure CodeSet where
  cuts : List Nat := []
  deriving DecidableEq, Inhabited

namespace CodeSet

/-- Whether `n` is a member, where `inside` tells it of the code points before the first cut. -/
def memberFrom (inside : Bool) (n : Nat) : List Nat → Bool
  | [] => inside
  | cut :: rest => if n < cut then inside else memberFrom (!inside) n rest

def member (s : CodeSet) (n : Nat) : Bool := memberFrom false n s.cuts

def contains (s : CodeSet) (c : Char) : Bool := s.member c.toNat

def empty : CodeSet := {}

def range (first last : Nat) : CodeSet := if first ≤ last then ⟨[first, last + 1]⟩ else empty

def single (c : Char) : CodeSet := range c.toNat c.toNat

def all : CodeSet := range 0 0x10FFFF

/-- Put a cut in front of others if membership changes there. -/
def cutIf (changes : Bool) (n : Nat) (rest : List Nat) : List Nat :=
  if changes then n :: rest else rest

/-- The cuts of a result from the cuts of the second set, where those of the first are used up. -/
def mergeRest (op : Bool → Bool → Bool) (inA inB out : Bool) : List Nat → List Nat
  | [] => []
  | b :: bs =>
    let now := op inA (!inB)
    cutIf (now != out) b (mergeRest op inA (!inB) now bs)

/-- The cuts of a result up to the cut `a` of the first set, and from there on by `next`. -/
def mergeUpTo (op : Bool → Bool → Bool) (a : Nat) (inA : Bool)
    (next : Bool → Bool → List Nat → List Nat) (inB out : Bool) : List Nat → List Nat
  | [] =>
    let now := op (!inA) inB
    cutIf (now != out) a (next inB now [])
  | b :: bs =>
    if b < a then
      let now := op inA (!inB)
      cutIf (now != out) b (mergeUpTo op a inA next (!inB) now bs)
    else if a < b then
      let now := op (!inA) inB
      cutIf (now != out) a (next inB now (b :: bs))
    else
      let now := op (!inA) (!inB)
      cutIf (now != out) a (next (!inB) now bs)

/-- Walk over the cuts of two sets, where `inA`, `inB` and `out` tell the membership before the next
cut in each of them and in the result. -/
def mergeFrom (op : Bool → Bool → Bool) (inA : Bool) :
    List Nat → (inB out : Bool) → List Nat → List Nat
  | [], inB, out, bs => mergeRest op inA inB out bs
  | a :: as, inB, out, bs => mergeUpTo op a inA (mergeFrom op (!inA) as) inB out bs

/-- The code points for which `op` holds of the memberships in two sets; of neither set it has to
be false. -/
def combine (op : Bool → Bool → Bool) (a b : CodeSet) : CodeSet :=
  ⟨mergeFrom op false a.cuts false false b.cuts⟩

def union (a b : CodeSet) : CodeSet := combine (· || ·) a b

def inter (a b : CodeSet) : CodeSet := combine (· && ·) a b

def without (a b : CodeSet) : CodeSet := combine (fun x y => x && !y) a b

/-- What is in one of two sets only. -/
def inOneOnly (a b : CodeSet) : CodeSet := combine (· != ·) a b

def compl (s : CodeSet) : CodeSet := all.without s

def unionAll (sets : List CodeSet) : CodeSet := sets.foldr union empty

/-- The maximal ranges between two cuts each. -/
def rangesOf : List Nat → List (Nat × Nat)
  | first :: next :: rest => (first, next - 1) :: rangesOf rest
  | _ => []

/-- The members as maximal ranges, in order. -/
def ranges (s : CodeSet) : List (Nat × Nat) := rangesOf s.cuts

/-- The cuts of an ascending list of code points. -/
def cutsOf : List Nat → List Nat
  | [] => []
  | n :: rest => match cutsOf rest with
    | [] => [n, n + 1]
    | next :: cuts =>
      if n = next then next :: cuts
      else if n + 1 = next then n :: cuts
      else n :: (n + 1) :: next :: cuts

/-- Put a number into an ascending list. -/
def insertPoint (n : Nat) : List Nat → List Nat
  | [] => [n]
  | m :: rest => if n ≤ m then n :: m :: rest else m :: insertPoint n rest

/-- The code points of a list. -/
def ofList (points : List Nat) : CodeSet := ⟨cutsOf (points.foldr insertPoint [])⟩

def isEmpty (s : CodeSet) : Bool := s.cuts.isEmpty

def sole? (s : CodeSet) : Option Nat :=
  match s.cuts with
  | [first, next] => if next = first + 1 then some first else none
  | _ => none

def isBelow (s : CodeSet) (n : Nat) : Bool := s.cuts.all (· ≤ n)

/-! ## Tables -/

/-- The value of a hexadecimal digit in capitals. -/
def digitValue (c : Char) : Nat :=
  if c ≤ '9' then c.toNat - '0'.toNat else c.toNat - 'A'.toNat + 10

/-- A table that is being read: the cuts so far, the last first, and the numbers of the entry at
hand. -/
structure Scan where
  cuts : List Nat := []
  first : Option Nat := none
  last : Option Nat := none
  number : Option Nat := none

/-- The entry at hand, if there is one, is complete: one code point, a range, or every so manieth of
a range. -/
def Scan.close (s : Scan) : Scan :=
  match s.first, s.last, s.number with
  | _, _, none => s
  | none, _, some n => { cuts := (n + 1) :: n :: s.cuts }
  | some first, none, some n => { cuts := (n + 1) :: first :: s.cuts }
  | some first, some last, some step =>
    { cuts := (List.range ((last - first) / step + 1)).foldl (fun cuts i =>
        (first + i * step + 1) :: (first + i * step) :: cuts) s.cuts }

def Scan.step (s : Scan) (c : Char) : Scan :=
  if c = ' ' ∨ c = '\n' then s.close
  else if c = '-' then { s with first := s.number, number := none }
  else if c = '/' then { s with last := s.number, number := none }
  else { s with number := some (16 * s.number.getD 0 + digitValue c) }

/-- Read a table of hexadecimal code points and ranges, ascending and with gaps between; `/2` behind
a range takes every second code point of it. -/
def ofText (table : String) : CodeSet :=
  ⟨(table.toList.foldl Scan.step {}).close.cuts.reverse⟩

example : ofText "30-39 5F 61-7A" = ⟨[0x30, 0x3A, 0x5F, 0x60, 0x61, 0x7B]⟩ := by decide
example : (ofText "100-104/2").ranges =
    [(0x100, 0x100), (0x102, 0x102), (0x104, 0x104)] := by decide
example : (ofText "30-39 5F").contains '7' ∧ ¬ (ofText "30-39 5F").contains 'a' := by decide

end CodeSet

end XmlBinding.Text
