import XmlBinding.Text.WordChars

/-!
# Regular expressions

An expression is run on a whole set of places at once: from the places of a text where it may start
to those where it may end. A place lies in front of a character or at the end, and a set of places
is kept as a list with the last place first, so that the places a repetition comes to are put in
front of those it has seen.
-/
namespace XmlBinding

open Text (CodeSet)

/-- The kinds of word boundary. The halves look at one side only. -/
inductive WordEdge
  | boundary
  | noBoundary
  | start
  | finish
  | startHalf
  | finishHalf
  deriving DecidableEq

/-- A condition on a place. Lines end with a line feed or, where `crlf` is set, with a carriage
return, a line feed or both; words are made of the word characters of all scripts or of ASCII. -/
inductive Look
  | textStart
  | textEnd
  | lineStart (crlf : Bool)
  | lineEnd (crlf : Bool)
  | word (edge : WordEdge) (ascii : Bool)
  deriving DecidableEq

/-- A regular expression. An empty part of a sequence is what a switch of modes leaves behind. -/
inductive Regex
  | empty
  | char (c : Char)
  | set (members : CodeSet)
  | look (condition : Look)
  | seq (parts : List Regex)
  | either (branches : List Regex)
  /-- At least `least` times, and at most `most` times where that is given. -/
  | times (least : Nat) (most : Option Nat) (greedy : Bool) (inner : Regex)
  | group (captures : Bool) (inner : Regex)

/-- A word character of ASCII. -/
def Look.isAsciiWordChar (c : Char) : Bool := c.isAlphanum || c == '_'

/-- Whether a word character stands on this side of a place. -/
def Look.isWord (ascii : Bool) (c : Option Char) : Bool :=
  c.any fun c => if ascii then Look.isAsciiWordChar c else Text.wordCharacters.contains c

/-- Whether a boundary lies between two sides, where a side tells if it belongs to a word. -/
def WordEdge.holds (before after : Bool) : WordEdge → Bool
  | .boundary => before != after
  | .noBoundary => before == after
  | .start => !before && after
  | .finish => before && !after
  | .startHalf => !before
  | .finishHalf => !after

/-- Whether a condition is met between two characters. -/
def Look.holds (before after : Option Char) : Look → Bool
  | .textStart => before.isNone
  | .textEnd => after.isNone
  | .lineStart crlf =>
    before.isNone || before == some '\n' || (crlf && before == some '\r' && after != some '\n')
  | .lineEnd crlf =>
    after.isNone ||
      if crlf then after == some '\r' || (after == some '\n' && before != some '\r')
      else after == some '\n'
  | .word edge ascii => edge.holds (Look.isWord ascii before) (Look.isWord ascii after)

namespace Regex

/-- A place of a text: the number of characters in front of it, the last of these, and the rest. -/
structure Place where
  index : Nat
  before : Option Char
  rest : List Char

/-- The places of a text from some place on, in front of those in `later`. -/
def placesFrom (p : Place) (later : List Place) : List Char → List Place
  | [] => p :: later
  | c :: rest => placesFrom ⟨p.index + 1, some c, rest⟩ (p :: later) rest

/-- The places of a text, the last first. -/
def places (cs : List Char) : List Place := placesFrom ⟨0, none, cs⟩ [] cs

/-- The places behind a character that has the property. -/
def advance (holds : Char → Bool) (ps : List Place) : List Place :=
  ps.filterMap fun p => match p.rest with
    | c :: rest => if holds c then some ⟨p.index + 1, some c, rest⟩ else none
    | [] => none

/-- Put a place into a list whose first place it does not come before; for another place `next`
goes on. -/
def mergeInto (p : Place) (next : List Place → List Place) : List Place → List Place
  | [] => p :: next []
  | q :: qs =>
    if q.index < p.index then p :: next (q :: qs)
    else if p.index < q.index then q :: mergeInto p next qs
    else p :: next qs

def union : List Place → List Place → List Place
  | [], qs => qs
  | p :: ps, qs => mergeInto p (union ps) qs

/-- Keep the place `p` unless it is in a list, and go on behind it. -/
def dropKnown (p : Place) (next : List Place → List Place) : List Place → List Place
  | [] => p :: next []
  | q :: qs =>
    if q.index < p.index then p :: next (q :: qs)
    else if p.index < q.index then dropKnown p next qs
    else next qs

def except : List Place → List Place → List Place
  | [], _ => []
  | p :: ps, qs => dropKnown p (except ps) qs

def power (f : List Place → List Place) : Nat → List Place → List Place
  | 0, ps => ps
  | n + 1, ps => if ps.isEmpty then [] else power f n (f ps)

/-- All places that up to `n` rounds of `f` come to, where `seen` are those before this round and
`fresh` the last to be added to them. -/
def upTo (f : List Place → List Place) : Nat → (seen fresh : List Place) → List Place
  | 0, seen, _ => seen
  | n + 1, seen, fresh =>
    if fresh.isEmpty then seen
    else
      let fresh := except (f fresh) seen
      upTo f n (union fresh seen) fresh

mutual

/-- The places that a match can end at when it starts at one of the given places in a text of
`count` places. To apply an expression more often than there are places reaches nothing new. -/
def reach (count : Nat) : Regex → List Place → List Place
  | .empty, ps => ps
  | .char c, ps => advance (· == c) ps
  | .set members, ps => advance members.contains ps
  | .look condition, ps => ps.filter fun p => condition.holds p.before p.rest.head?
  | .seq parts, ps => reachAll count parts ps
  | .either branches, ps => reachAny count branches ps
  | .times least most _ inner, ps =>
    let first := power (reach count inner) (min least count) ps
    let rounds := match most with
      | none => count
      | some most => min (most - least) count
    upTo (reach count inner) rounds first first
  | .group _ inner, ps => reach count inner ps

def reachAll (count : Nat) : List Regex → List Place → List Place
  | [], ps => ps
  | r :: rest, ps => if ps.isEmpty then [] else reachAll count rest (reach count r ps)

def reachAny (count : Nat) : List Regex → List Place → List Place
  | [], _ => []
  | r :: rest, ps => union (reach count r ps) (reachAny count rest ps)

end

/-- Whether the expression matches somewhere in a text. -/
def occursIn (r : Regex) (cs : List Char) : Bool :=
  !(r.reach (cs.length + 1) (places cs)).isEmpty

end Regex

end XmlBinding
