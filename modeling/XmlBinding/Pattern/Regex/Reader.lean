import XmlBinding.Decimal.Reading
import XmlBinding.Pattern.Regex.Automaton
import XmlBinding.Pattern.Regex.Class

/-!
# Reading regular expressions

The written form is read once from left to right. Open groups are kept on a stack with the
alternatives and the items that they had when they were opened; modes that are switched inside a
group end with it. An expression must not be nested too deeply, nor take too much room.
-/
namespace XmlBinding.Regex

open Text (CodeSet)

/-- An expression that has been read and the depth to which it is nested. -/
structure Piece where
  expr : Regex
  depth : Nat := 0

def greatestDepth (ps : List Piece) : Nat := ps.foldl (fun d p => max d p.depth) 0

def Piece.sequence (ps : List Piece) : Piece :=
  match ps with
  | [] => ⟨.empty, 0⟩
  | [p] => p
  | ps => ⟨.seq (ps.map (·.expr)), greatestDepth ps + 1⟩

def Piece.choice (ps : List Piece) : Piece :=
  match ps with
  | [p] => p
  | ps => ⟨.either (ps.map (·.expr)), greatestDepth ps + 1⟩

/-- What is read of a group so far, the last first, whether the group captures, and the modes
outside it. A switch of modes is an empty item, which cannot be repeated. -/
structure Level where
  branches : List Piece := []
  items : List Piece := []
  captures : Bool := false
  outer : Flags := {}

structure ReadState where
  level : Level := {}
  open_ : List Level := []
  flags : Flags := {}
  names : List (List Char) := []

def Level.branch (l : Level) : Piece := Piece.sequence l.items.reverse

def Level.value (l : Level) : Piece := Piece.choice (l.branch :: l.branches).reverse

/-- The greatest depth of an expression. -/
def depthLimit : Nat := 250

def ReadState.add? (st : ReadState) (p : Piece) : Option ReadState :=
  if p.depth ≤ depthLimit then
    some { st with level := { st.level with items := p :: st.level.items } }
  else none

def ReadState.branch (st : ReadState) : ReadState :=
  { st with level :=
      { st.level with branches := st.level.branch :: st.level.branches, items := [] } }

def ReadState.enter (st : ReadState) (captures : Bool) (inner : Flags) : ReadState :=
  { st with
    level := { captures := captures, outer := st.flags }, open_ := st.level :: st.open_,
    flags := inner }

def ReadState.leave? (st : ReadState) : Option ReadState :=
  match st.open_ with
  | [] => none
  | l :: rest =>
    let p := st.level.value
    { st with level := l, open_ := rest, flags := st.level.outer }.add?
      ⟨.group st.level.captures p.expr, p.depth + 1⟩

/-- Repeat the last item, which has to be an expression. -/
def ReadState.repeatLast? (st : ReadState) (least : Nat) (most : Option Nat) (isLazy : Bool) :
    Option ReadState :=
  match st.level.items with
  | [] => none
  | ⟨.empty, _⟩ :: _ => none
  | p :: items =>
    let p : Piece := ⟨.times least most (isLazy == st.flags.swapGreed) p.expr, p.depth + 1⟩
    { st with level := { st.level with items := items } }.add? p

/-- A question mark behind a repetition makes it lazy. -/
def ReadState.repeat? (st : ReadState) (least : Nat) (most : Option Nat) :
    List Char → Option (ReadState × List Char)
  | '?' :: rest => (st.repeatLast? least most true).map (·, rest)
  | rest => (st.repeatLast? least most false).map (·, rest)

def Flags.switch? (fl : Flags) (c : Char) (on : Bool) : Option Flags :=
  if c = 'i' then some { fl with caseless := on }
  else if c = 'm' then some { fl with multiLine := on }
  else if c = 's' then some { fl with dotAll := on }
  else if c = 'x' then some { fl with verbose := on }
  else if c = 'R' then some { fl with crlf := on }
  else if c = 'U' then some { fl with swapGreed := on }
  else if c = 'u' then some { fl with ascii := !on }
  else none

/-- Letters for modes, up to a colon or a closing parenthesis; those behind a hyphen are switched
off. No letter may come twice, and one has to follow the hyphen. -/
def switches? (fl : Flags) (seen : List Char) (on dangling : Bool) :
    List Char → Option ((Flags × Char) × List Char)
  | [] => none
  | c :: rest =>
    if c = ':' ∨ c = ')' then if dangling then none else some ((fl, c), rest)
    else if c = '-' then if on then switches? fl seen false true rest else none
    else if seen.contains c then none
    else match fl.switch? c on with
      | some fl => switches? fl (c :: seen) on false rest
      | none => none

def groupName? (cs : List Char) : Option (List Char × List Char) :=
  let name := cs.takeWhile (· ≠ '>')
  let isFirst (c : Char) : Bool := c == '_' || Text.isAlphabetic c
  let isLater (c : Char) : Bool := ['_', '.', '[', ']'].contains c || Text.isAlphanumeric c
  match name, cs.dropWhile (· ≠ '>') with
  | c :: more, _ :: rest => if isFirst c && more.all isLater then some (name, rest) else none
  | _, _ => none

/-- A group with a name, or none if the name is taken. -/
def ReadState.named? (st : ReadState) (cs : List Char) : Option (ReadState × List Char) :=
  match groupName? cs with
  | some (name, rest) =>
    if st.names.contains name then none
    else some ({ st.enter true st.flags with names := name :: st.names }, rest)
  | none => none

/-- Modes for a group of their own, or for the rest of the group around them. -/
def ReadState.switched? (st : ReadState) (cs : List Char) : Option (ReadState × List Char) := do
  let ((fl, mark), rest) ← switches? st.flags [] true false cs
  if mark = ':' then some (st.enter false fl, rest)
  else ({ st with flags := fl }.add? ⟨.empty, 0⟩).map (·, rest)

/-- What follows a question mark in a group. Conditions on the text ahead or behind are refused,
since neither a mode nor a name begins with one of their signs. -/
def ReadState.special? (st : ReadState) : List Char → Option (ReadState × List Char)
  | 'P' :: '<' :: rest => st.named? rest
  | '<' :: rest => st.named? rest
  | ')' :: _ => none
  | rest => st.switched? rest

/-- What follows an opening parenthesis: the start of a group, or a switch of modes. -/
def ReadState.group? (st : ReadState) : List Char → Option (ReadState × List Char)
  | '?' :: rest => st.special? rest
  | rest => some (st.enter true st.flags, rest)

/-- The digits of a number with white space around it, after those in `digits`, the last first. In
verbose mode white space and comments may also stand between them; otherwise `ended` says that they
are complete. -/
def Flags.count (fl : Flags) (digits : List Char) (ended inComment : Bool) :
    List Char → List Char × List Char
  | [] => (digits.reverse, [])
  | c :: rest =>
    if inComment then fl.count digits ended (c ≠ '\n') rest
    else if c.isDigit && !ended then fl.count (c :: digits) false false rest
    else if Text.isBlank c then
      fl.count digits (!fl.verbose && !digits.isEmpty) false rest
    else if fl.verbose && c == '#' then fl.count digits ended true rest
    else (digits.reverse, c :: rest)

/-- A number with white space around it. -/
def Flags.number? (fl : Flags) (cs : List Char) : Option (Nat × List Char) :=
  let (digits, rest) := fl.count [] false false cs
  (Decimal.natural? digits).map (·, rest)

/-- The greatest number of repetitions. -/
def countLimit : Nat := 4294967295

/-- The second bound, where the brace says that there is none. -/
def Flags.upper? (fl : Flags) : List Char → Option (Option Nat × List Char)
  | '\x7d' :: rest => some (none, '\x7d' :: rest)
  | rest => (fl.number? rest).map fun (most, rest) => (some most, rest)

/-- The second bound, which is the first one where no comma stands between them. -/
def Flags.most? (fl : Flags) (least : Nat) : List Char → Option (Option Nat × List Char)
  | ',' :: rest => fl.upper? (fl.skip rest)
  | rest => some (some least, rest)

/-- The bounds, if they are in order, up to the closing brace. -/
def closeBounds? (least : Nat) (most : Option Nat) :
    List Char → Option ((Nat × Option Nat) × List Char)
  | '\x7d' :: rest =>
    if countLimit < max least (most.getD 0) ∨ most.any (· < least) then none
    else some ((least, most), rest)
  | _ => none

def Flags.bounds? (fl : Flags) (cs : List Char) : Option ((Nat × Option Nat) × List Char) := do
  let (least, rest) ← fl.number? (fl.skip cs)
  let (most, rest) ← fl.most? least rest
  closeBounds? least most rest

def Flags.literal (fl : Flags) (c : Char) : Regex :=
  let forms := fl.folded (.single c)
  if forms = .single c then .char c else .set forms

def Flags.atom (fl : Flags) : Atom → Regex
  | .char c => fl.literal c
  | .set s => .set s
  | .look condition => .look condition

/-- Any character, or any that does not end a line. Among bytes a dot is refused. -/
def Flags.dot? (fl : Flags) : Option Regex :=
  if fl.ascii then none
  else if fl.dotAll then some (.set .all)
  else some (.set (CodeSet.compl (.ofText (if fl.crlf then "A D" else "A"))))

/-- The start of the text or, in multi-line mode, of a line. -/
def Flags.start (fl : Flags) : Look := if fl.multiLine then .lineStart fl.crlf else .textStart

/-- The end of the text or, in multi-line mode, of a line. -/
def Flags.finish (fl : Flags) : Look := if fl.multiLine then .lineEnd fl.crlf else .textEnd

/-- Read one item, one operator or one end of a group. -/
def ReadState.step? (st : ReadState) : List Char → Option (ReadState × List Char)
  | [] => none
  | '(' :: rest => st.group? (st.flags.skip rest)
  | ')' :: rest => st.leave?.map (·, rest)
  | '|' :: rest => some (st.branch, rest)
  | '[' :: rest => do
    let (p, rest) ← st.flags.class? rest
    return (← st.add? ⟨.set p.set, p.depth⟩, rest)
  | '?' :: rest => st.repeat? 0 (some 1) rest
  | '*' :: rest => st.repeat? 0 none rest
  | '+' :: rest => st.repeat? 1 none rest
  | '\x7b' :: rest => do
    let ((least, most), rest) ← st.flags.bounds? rest
    st.repeat? least most (st.flags.skip rest)
  | '.' :: rest => do return (← st.add? ⟨← st.flags.dot?, 0⟩, rest)
  | '^' :: rest => (st.add? ⟨.look st.flags.start, 0⟩).map (·, rest)
  | '$' :: rest => (st.add? ⟨.look st.flags.finish, 0⟩).map (·, rest)
  | '\\' :: rest => do
    let (a, rest) ← st.flags.escape? rest
    return (← st.add? ⟨st.flags.atom a, 0⟩, rest)
  | c :: rest => (st.add? ⟨st.flags.literal c, 0⟩).map (·, rest)

/-- Read to the end; every step uses at least one character. -/
def readAll? : Nat → ReadState → List Char → Option Piece
  | 0, _, _ => none
  | fuel + 1, st, cs => match st.flags.skip cs with
    | [] => if st.open_.isEmpty then some st.level.value else none
    | cs => match st.step? cs with
      | some (st, rest) => readAll? fuel st rest
      | none => none

/-- Read a regular expression. One that is nested too deeply or takes too much room is refused. -/
def read? (cs : List Char) : Option Regex := do
  let p ← readAll? (cs.length + 1) {} cs
  if p.depth ≤ depthLimit && Automaton.fits (.ofRegex p.expr) then some p.expr else none

def readAnchored? (cs : List Char) : Option Regex := read? ("^(?:".toList ++ cs ++ ")$".toList)

end XmlBinding.Regex
