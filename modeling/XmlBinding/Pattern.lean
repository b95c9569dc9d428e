import XmlBinding.Text.Bytes
import XmlBinding.Pattern.Error

/-!
# Path patterns

The path of an element is the names of the open elements with slashes between them. A pattern is a
path in which some segments may be marks: a leading `*/` stands for any ancestors, a last `?` for
one child and a last `*` for any descendants, and `!` in front sets the pattern apart from the
competition for the best match. This module holds the two grammars and the tests on characters that
say which paths a pattern covers.
-/
namespace XmlBinding.Pattern

def segments : List Char → List (List Char)
  | [] => [[]]
  | c :: rest =>
    if c = '/' then [] :: segments rest
    else match segments rest with
      | first :: others => (c :: first) :: others
      | [] => [[c]]

/-- Drop a slash at the end, unless it is all there is. -/
def dropFinalSlash (cs : List Char) : List Char :=
  if 1 < cs.length ∧ cs.getLast? = some '/' then cs.dropLast else cs

def withoutBang : List Char → List Char
  | '!' :: rest => rest
  | cs => cs

/-- The pattern without a leading `*/`, if it has one. -/
def afterLeadingStar? : List Char → Option (List Char)
  | '*' :: '/' :: rest => some rest
  | _ => none

/-- Something between all slashes. -/
def checkSegments (cs : List Char) : Except PatternError Unit :=
  if cs.isEmpty then .error .empty
  else if (segments cs).any List.isEmpty then .error (.emptySegment (String.ofList cs))
  else .ok ()

/-- The grammar with a leading `*/` as the only mark. -/
def checkPlain (cs : List Char) : Except PatternError Unit := do
  checkSegments cs
  if (segments ((afterLeadingStar? cs).getD cs)).any (· == ['*']) then
    throw (.misplaced (String.ofList cs) .starOnlyLeading)

/-- The fault of the segment at a place, where `isFirst` and `isLast` tell the place. -/
def markFault? (isFirst isLast : Bool) (segment : List Char) : Option Misplacement :=
  if segment = ['?'] ∧ (!isLast ∨ isFirst) then some .questionOnlyLast
  else if segment = ['*'] ∧ !isFirst ∧ !isLast then some .starOnlyOutside
  else none

/-- The first fault in the segments from some place on. -/
def firstFault? (isFirst : Bool) : List (List Char) → Option Misplacement
  | [] => none
  | segment :: rest =>
    match markFault? isFirst rest.isEmpty segment with
    | some fault => some fault
    | none => firstFault? false rest

/-- The grammar with all marks. -/
def checkExtended (cs : List Char) : Except PatternError Unit := do
  let body := withoutBang cs
  if cs.isEmpty then throw .empty
  if body.contains '!' then throw (.misplaced (String.ofList cs) .bangOnlyFirst)
  if body ≠ ['*'] then
    checkSegments body
    match firstFault? true (segments body) with
    | some fault => throw (.misplaced (String.ofList cs) fault)
    | none => pure ()

/-! ## Which paths a pattern covers -/

/-- Whether `path` ends in `suffix` at a segment boundary. -/
def endsAtSegment (suffix path : List Char) : Bool :=
  path == suffix || ('/' :: suffix).isSuffixOf path

def occursIn (part : List Char) : List Char → Bool
  | [] => part.isEmpty
  | c :: rest => part.isPrefixOf (c :: rest) || occursIn part rest

/-- Whether the segments of `inner` occur one after the other in `path`. -/
def runsThrough (inner path : List Char) : Bool :=
  endsAtSegment inner path || (inner ++ ['/']).isPrefixOf path ||
    occursIn ('/' :: inner ++ ['/']) path

/-- The path of the enclosing element: all before the last slash. -/
def parent? (path : List Char) : Option (List Char) :=
  match path.reverse.dropWhile (· ≠ '/') with
  | _ :: rest => some rest.reverse
  | [] => none

/-- The shape of a pattern, told once when it is registered. -/
structure Shape where
  /-- Starts with `!`. -/
  universal : Bool
  /-- Starts with `*/`, after any `!`. -/
  anyAncestor : Bool
  /-- Ends in `/*`. -/
  anyDescendant : Bool
  /-- Ends in `/?`. -/
  oneChild : Bool
  deriving DecidableEq

def Shape.of (key : List Char) : Shape :=
  let body := withoutBang key
  { universal := key.head? == some '!'
    anyAncestor := (afterLeadingStar? body).isSome
    anyDescendant := ['/', '*'].isSuffixOf body
    oneChild := ['/', '?'].isSuffixOf body }

/-- The key without its last two characters. -/
def stem (key : List Char) : List Char := key.take (key.length - 2)

/-- Whether a key that ends in `/?` covers the children of `parent`. -/
def coversChildrenOf (key parent : List Char) : Bool :=
  match afterLeadingStar? (stem key) with
  | some suffix => endsAtSegment suffix parent
  | none => stem key == parent

/-- What stands between the two stars of a key; there is no such part in `*/*`, whose stars share
their slash. -/
def between? (key : List Char) : Option (List Char) :=
  if 4 ≤ key.length then some ((key.drop 2).take (key.length - 4)) else none

/-- Whether a key without `!` covers a path; `none` where the key has no part to compare. Only keys
that start with `*/` or end in `/*` are asked. -/
def Shape.covers? (s : Shape) (key path : List Char) : Option Bool :=
  if s.oneChild then some <| match parent? path with
    | some p => coversChildrenOf key p
    | none => false
  else if s.anyAncestor && s.anyDescendant then (between? key).map (runsThrough · path)
  else if s.anyAncestor then some (endsAtSegment (key.drop 2) path)
  else some (path == stem key || key.dropLast.isPrefixOf path)

/-- The length by which a covering key competes: its marks do not count. -/
def Shape.weight (s : Shape) (key : List Char) : Nat :=
  Text.byteLength key - (if s.anyAncestor then 1 else 0) -
    (if s.anyDescendant || s.oneChild then 1 else 0)

end XmlBinding.Pattern
