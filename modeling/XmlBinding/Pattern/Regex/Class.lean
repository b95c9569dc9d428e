import XmlBinding.Pattern.Regex.Escape

/-!
# Character classes

The sets of characters that are written in brackets, with ranges, nested classes and set operations.
Open brackets are kept on a stack. Beside the set goes the depth to which the parts of the class are
nested, which is limited.
-/
namespace XmlBinding.Regex

open Text (CodeSet)

/-- The ASCII classes that have a name. -/
def asciiClass? (name : String) : Option CodeSet :=
  if name = "alnum" then some (.ofText "30-39 41-5A 61-7A")
  else if name = "alpha" then some (.ofText "41-5A 61-7A")
  else if name = "ascii" then some (.range 0 0x7F)
  else if name = "blank" then some (.ofText "9 20")
  else if name = "cntrl" then some (.ofText "0-1F 7F")
  else if name = "digit" then some (.range 0x30 0x39)
  else if name = "graph" then some (.range 0x21 0x7E)
  else if name = "lower" then some (.range 0x61 0x7A)
  else if name = "print" then some (.range 0x20 0x7E)
  else if name = "punct" then some (.ofText "21-2F 3A-40 5B-60 7B-7E")
  else if name = "space" then some asciiSpace
  else if name = "upper" then some (.range 0x41 0x5A)
  else if name = "word" then some asciiWord
  else if name = "xdigit" then some (.ofText "30-39 41-46 61-66")
  else none

/-- An ASCII class by its name, up to a colon and a bracket. -/
def className? (cs : List Char) : Option (CodeSet × List Char) :=
  let found := cs.dropWhile (· ≠ ':')
  if [':', ']'].isPrefixOf found then
    (asciiClass? (String.ofList (cs.takeWhile (· ≠ ':')))).map (·, found.drop 2)
  else none

/-- A named ASCII class, from behind its bracket on, and whether it stands for its complement. -/
def namedClass? : List Char → Option (Bool × CodeSet × List Char)
  | ':' :: '^' :: rest => (className? rest).map (true, ·)
  | ':' :: rest => (className? rest).map (false, ·)
  | _ => none

/-- The set operations, which bind weaker than putting items side by side. -/
inductive SetOp
  | both
  | without
  | oneOnly

def SetOp.apply (op : SetOp) (a b : CodeSet) : CodeSet :=
  match op with
  | .both => a.inter b
  | .without => a.without b
  | .oneOnly => a.inOneOnly b

/-- A set that has been read and the depth to which its parts are nested. -/
structure Part where
  set : CodeSet
  depth : Nat := 0

/-- An open class: the items put side by side so far, their number and the greatest depth of one,
and the operation that they are the right-hand side of. -/
structure OpenClass where
  negated : Bool
  /-- Only hyphens have been read, which stand for themselves in front of a class. -/
  atStart : Bool := true
  items : CodeSet := .empty
  count : Nat := 0
  depth : Nat := 0
  left : Option (Part × SetOp) := none

def OpenClass.add (o : OpenClass) (p : Part) : OpenClass :=
  { o with
    items := o.items.union p.set, count := o.count + 1, depth := max o.depth p.depth }

def OpenClass.side (o : OpenClass) : Part :=
  ⟨o.items, if o.count ≤ 1 then o.depth else o.depth + 1⟩

def OpenClass.value (fl : Flags) (o : OpenClass) : Part :=
  match o.left with
  | some (l, op) =>
    ⟨op.apply (fl.folded l.set) (fl.folded o.side.set), max l.depth o.side.depth + 1⟩
  | none => o.side

/-- Begin the right-hand side of an operation. -/
def OpenClass.operate (fl : Flags) (o : OpenClass) (op : SetOp) : OpenClass :=
  { negated := o.negated, atStart := false, left := some (o.value fl, op) }

def OpenClass.close? (fl : Flags) (o : OpenClass) : Option Part :=
  let p := o.value fl
  (fl.negated? o.negated (fl.folded p.set)).map fun s => ⟨s, p.depth + 1⟩

/-- A character or an escape. -/
def Flags.anyAtom? (fl : Flags) : List Char → Option (Atom × List Char)
  | [] => none
  | '\\' :: rest => fl.escape? rest
  | c :: rest => some (.char c, rest)

/-- Whether an atom can be in a class among bytes. -/
def Atom.isNarrow : Atom → Bool
  | .char c => c.toNat ≤ 0x7F
  | _ => true

/-- One character or escape of a class. Among bytes only ASCII characters can be in a class. -/
def Flags.classAtom? (fl : Flags) (cs : List Char) : Option (Atom × List Char) :=
  (fl.anyAtom? cs).filter fun p => !fl.ascii || p.1.isNarrow

/-- The first character that is neither white space nor the mark of a comment. -/
def firstSign (inComment : Bool) : List Char → Option Char
  | [] => none
  | c :: rest =>
    if Text.isBlank c then firstSign inComment rest
    else if !inComment && c == '#' then firstSign true rest
    else some c

/-- Whether a hyphen in front of this text stands for itself or begins an operation. In verbose mode
this looks behind the mark of a comment, but not behind its text. -/
def Flags.endsRange (fl : Flags) (cs : List Char) : Bool :=
  let next := if fl.verbose then firstSign false cs else cs.head?
  next == some ']' || next == some '-'

/-- What an atom contributes to a class. A condition has no place there. -/
def Atom.members? : Atom → Option CodeSet
  | .char c => some (.single c)
  | .set s => some s
  | .look _ => none

/-- The range from one atom to the next one. -/
def Flags.rangeFrom? (fl : Flags) (first : Atom) (cs : List Char) :
    Option (CodeSet × List Char) := do
  let (last, rest) ← fl.classAtom? (fl.skip cs)
  match first, last with
  | .char a, .char b => if a ≤ b then some (.range a.toNat b.toNat, rest) else none
  | _, _ => none

/-- What stands behind the first atom of an item decides whether the item is a range. -/
def Flags.itemFrom? (fl : Flags) (first : Atom) (single : CodeSet) :
    List Char → Option (CodeSet × List Char)
  | [] => none
  | '-' :: after =>
    if fl.endsRange after then some (single, '-' :: after) else fl.rangeFrom? first after
  | rest => some (single, rest)

/-- One item of a class: a character, a range of characters, or an escaped class. -/
def Flags.classItem? (fl : Flags) (cs : List Char) : Option (CodeSet × List Char) := do
  let (first, rest) ← fl.classAtom? cs
  let single ← first.members?
  fl.itemFrom? first single (fl.skip rest)

/-- What stands behind an opening bracket: whether a complement is meant, and the items. -/
def Flags.openClass (fl : Flags) (cs : List Char) : OpenClass × List Char :=
  match fl.skip cs with
  | '^' :: rest => ({ negated := true }, rest)
  | rest => ({ negated := false }, rest)

/-- What one step in a class leads to: the class `o`, which stands in the classes `outer`, or the end
of the outermost one. -/
inductive ClassTurn
  | inside (outer : List OpenClass) (o : OpenClass)
  | done (p : Part)

/-- Put an item into the class that is read. -/
def OpenClass.adding (o : OpenClass) (outer : List OpenClass) (p : CodeSet × List Char) :
    ClassTurn × List Char :=
  (.inside outer (o.add ⟨p.1, 0⟩), p.2)

/-- What a hyphen in the class `o` begins: a difference or an item. Where only hyphens came before it
stands for itself. -/
def Flags.hyphenStep? (fl : Flags) (outer : List OpenClass) (o : OpenClass) (rest : List Char) :
    Option (ClassTurn × List Char) :=
  if o.atStart then some (o.adding outer (.single '-', rest))
  else match rest with
    | '-' :: rest => some (.inside outer (o.operate fl .without), rest)
    | rest => (fl.classItem? ('-' :: rest)).map (o.adding outer)

/-- A closing bracket. One that comes first is meant literally. -/
def Flags.closeStep? (fl : Flags) (outer : List OpenClass) (o : OpenClass) (rest : List Char) :
    Option (ClassTurn × List Char) :=
  if o.atStart && o.count = 0 then
    some (OpenClass.adding { o with atStart := false } outer (.single ']', rest))
  else (o.close? fl).map fun p => match outer with
    | [] => (.done p, rest)
    | next :: outer => (.inside outer (next.add p), rest)

/-- What an opening bracket in the class `o` begins: a named class or a nested one. -/
def Flags.openStep? (fl : Flags) (outer : List OpenClass) (o : OpenClass) (rest : List Char) :
    Option (ClassTurn × List Char) :=
  match namedClass? rest with
  | some (negated, s, rest) =>
    (fl.negated? negated (fl.folded s)).map fun s => o.adding outer (s, rest)
  | none =>
    let (nested, rest) := fl.openClass rest
    some (.inside (o :: outer) nested, rest)

/-- Read one item, one operator or one end of a class. -/
def Flags.classStep? (fl : Flags) (outer : List OpenClass) (o : OpenClass) (cs : List Char) :
    Option (ClassTurn × List Char) :=
  let inside := { o with atStart := false }
  match cs with
  | [] => none
  | '-' :: rest => fl.hyphenStep? outer o rest
  | ']' :: rest => fl.closeStep? outer o rest
  | '[' :: rest => fl.openStep? outer inside rest
  | '&' :: '&' :: rest => some (.inside outer (inside.operate fl .both), rest)
  | '~' :: '~' :: rest => some (.inside outer (inside.operate fl .oneOnly), rest)
  | cs => (fl.classItem? cs).map (inside.adding outer)

/-- Read on in the class `o`, which stands in the classes `outer`, to the end of the outermost
one. -/
def Flags.classFrom? (fl : Flags) :
    (fuel : Nat) → (outer : List OpenClass) → OpenClass → List Char → Option (Part × List Char)
  | 0, _, _, _ => none
  | fuel + 1, outer, o, cs => match fl.classStep? outer o (fl.skip cs) with
    | some (.inside outer o, rest) => fl.classFrom? fuel outer o rest
    | some (.done p, rest) => some (p, rest)
    | none => none

/-- The class behind an opening bracket. Every step uses at least one character. -/
def Flags.class? (fl : Flags) (cs : List Char) : Option (Part × List Char) :=
  let (o, rest) := fl.openClass cs
  fl.classFrom? (cs.length + 1) [] o rest

end XmlBinding.Regex
