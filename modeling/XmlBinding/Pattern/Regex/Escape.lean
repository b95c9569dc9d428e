import XmlBinding.Pattern.Regex
import XmlBinding.Text.Blank
import XmlBinding.Text.CaseFold
import XmlBinding.Text.Named

/-!
# Modes and escapes

The modes that can be switched inside an expression, and what a backslash begins: a character, a set
of characters or a condition on a place. `none` means that the text is not well formed.
-/
namespace XmlBinding.Regex

open Text (CodeSet)

/-- The modes that can be switched inside an expression. -/
structure Flags where
  caseless : Bool := false
  multiLine : Bool := false
  dotAll : Bool := false
  verbose : Bool := false
  crlf : Bool := false
  ascii : Bool := false
  swapGreed : Bool := false

/-- Skip white space and comments, which start with `#` and end with their line. -/
def skipVerbose (inComment : Bool) : List Char → List Char
  | [] => []
  | c :: rest =>
    if inComment then skipVerbose (c ≠ '\n') rest
    else if c = '#' then skipVerbose true rest
    else if Text.isBlank c then skipVerbose false rest
    else c :: rest

/-- Skip what has no meaning in verbose mode. -/
def Flags.skip (fl : Flags) (cs : List Char) : List Char :=
  if fl.verbose then skipVerbose false cs else cs

/-- The text up to a closing brace, without what has no meaning in verbose mode, and what follows
the brace. -/
def Flags.braced? (fl : Flags) (inComment : Bool) : List Char → Option (List Char × List Char)
  | [] => none
  | c :: rest =>
    if inComment then fl.braced? (c ≠ '\n') rest
    else if c = '\x7d' then some ([], rest)
    else if fl.verbose && Text.isBlank c then fl.braced? false rest
    else if fl.verbose && c == '#' then fl.braced? true rest
    else (fl.braced? false rest).map fun (text, after) => (c :: text, after)

/-- A set with all characters that differ from its members in case only, if case does not count. -/
def Flags.folded (fl : Flags) (s : CodeSet) : CodeSet :=
  if !fl.caseless then s
  else if fl.ascii then
    let letters := s.inter (.ofText "41-5A 61-7A")
    s.union (.ofList (letters.ranges.flatMap fun r =>
      (List.range (r.2 + 1 - r.1)).map fun i =>
        if r.1 + i < 0x61 then r.1 + i + 32 else r.1 + i - 32))
  else s.caseless

/-- A folded set or its complement. Among bytes a complement is no set of characters. -/
def Flags.negated? (fl : Flags) (negated : Bool) (s : CodeSet) : Option CodeSet :=
  if !negated then some s else if fl.ascii then none else some s.compl

/-- What an escape or a character stands for. -/
inductive Atom
  | char (c : Char)
  | set (s : CodeSet)
  | look (condition : Look)

def hexDigit? (c : Char) : Option Nat :=
  if '0' ≤ c ∧ c ≤ '9' then some (c.toNat - '0'.toNat)
  else if 'a' ≤ c ∧ c ≤ 'f' then some (c.toNat - 'a'.toNat + 10)
  else if 'A' ≤ c ∧ c ≤ 'F' then some (c.toNat - 'A'.toNat + 10)
  else none

def ofHex (acc : Nat) : List Char → Option Nat
  | [] => some acc
  | c :: rest => match hexDigit? c with
    | some d => ofHex (16 * acc + d) rest
    | none => none

def scalar? (n : Nat) : Option Char := if n.isValidChar then some (Char.ofNat n) else none

/-- A number of `width` hexadecimal digits, after the digits of `acc`. -/
def Flags.fixedHex? (fl : Flags) (acc : Nat) : (width : Nat) → List Char → Option (Nat × List Char)
  | 0, cs => some (acc, cs)
  | width + 1, c :: rest => match hexDigit? c with
    | some d => fl.fixedHex? (16 * acc + d) width (fl.skip rest)
    | none => none
  | _ + 1, [] => none

/-- A character by its code, from behind an opening brace on. -/
def Flags.bracedHex? (fl : Flags) (cs : List Char) : Option (Atom × List Char) := do
  let (digits, rest) ← fl.braced? false cs
  if digits.isEmpty then none
  else
    let c ← scalar? (← ofHex 0 digits)
    return (.char c, fl.skip rest)

/-- A character by its code of `width` digits. Two digits stand for a byte, and among bytes only
those of ASCII are characters. -/
def Flags.plainHex? (fl : Flags) (width : Nat) (cs : List Char) : Option (Atom × List Char) := do
  let (n, rest) ← fl.fixedHex? 0 width cs
  let c ← scalar? n
  if fl.ascii && width = 2 && 0x7F < n then none else some (.char c, rest)

/-- A character by its code: `width` digits, or any number of them in braces. -/
def Flags.hex? (fl : Flags) (width : Nat) : List Char → Option (Atom × List Char)
  | '\x7b' :: inner => fl.bracedHex? inner
  | cs => fl.plainHex? width cs

/-- Cut a text at the first occurrence of one of two marks. -/
def cutAt (isMark : Char → List Char → Bool) : List Char → Option (List Char × List Char)
  | [] => none
  | c :: rest =>
    if isMark c rest then some ([], rest)
    else (cutAt isMark rest).map fun (front, back) => (c :: front, back)

/-- The set that is named in braces: a name, or a property and its value. The flag says whether the
characters outside the set are meant, which is so behind `!=`. -/
def namedSet? (text : List Char) : Option (Bool × CodeSet) :=
  match cutAt (fun c rest => c == '!' && rest.head? == some '=') text with
  | some (property, value) => (Text.Named.valueSet? property (value.drop 1)).map (true, ·)
  | none =>
    let found := match cutAt (fun c _ => c == ':') text with
      | some (property, value) => Text.Named.valueSet? property value
      | none => match cutAt (fun c _ => c == '=') text with
        | some (property, value) => Text.Named.valueSet? property value
        | none => Text.Named.set? text
    found.map (false, ·)

/-- A name in braces or of one letter. -/
def Flags.setName? (fl : Flags) : List Char → Option (List Char × List Char)
  | [] => none
  | '\x7b' :: inner => fl.braced? false inner
  | c :: rest => some ([c], rest)

/-- A set by its name. What is negated twice is the set itself. -/
def Flags.property? (fl : Flags) (negated : Bool) (cs : List Char) :
    Option (Atom × List Char) := do
  let (name, rest) ← fl.setName? (fl.skip cs)
  if fl.ascii then none
  else
    let (outside, named) ← namedSet? name
    let s ← fl.negated? (negated != outside) (fl.folded named)
    return (.set s, rest)

def asciiSpace : CodeSet := .ofText "9-D 20"

def asciiWord : CodeSet := .ofText "30-39 41-5A 5F 61-7A"

/-- Digits, white space and word characters, of all scripts or of ASCII alone. -/
def Flags.shorthand (fl : Flags) (c : Char) : CodeSet :=
  if c = 'd' then if fl.ascii then .range 0x30 0x39 else Text.Category.decimalNumber
  else if c = 's' then if fl.ascii then asciiSpace else Text.Property.whiteSpace
  else if fl.ascii then asciiWord
  else Text.wordCharacters

def Flags.edge (fl : Flags) (e : WordEdge) : Atom := .look (.word e fl.ascii)

/-- The conditions on word boundaries, by the name in braces behind `\b`. -/
def edgeNamed? (name : String) : Option WordEdge :=
  if name = "start" then some .start
  else if name = "end" then some .finish
  else if name = "start-half" then some .startHalf
  else if name = "end-half" then some .finishHalf
  else none

/-- A special word boundary, from behind an opening brace on. -/
def Flags.namedEdge? (fl : Flags) (cs : List Char) : Option (Atom × List Char) := do
  let (name, rest) ← fl.braced? false cs
  let e ← edgeNamed? (String.ofList name)
  return (fl.edge e, rest)

/-- Whether a text behind an opening brace begins like the name of a special word boundary. -/
def Flags.namesEdge (fl : Flags) (cs : List Char) : Bool :=
  (fl.skip cs).head?.any fun c => c.isAlpha || c == '-'

/-- A word boundary, or a special one named in braces. Braces that hold no name are left to be read
as a repetition. -/
def Flags.boundary? (fl : Flags) (cs : List Char) : Option (Atom × List Char) :=
  match cs with
  | '\x7b' :: inner =>
    if fl.namesEdge inner then fl.namedEdge? (fl.skip inner) else some (fl.edge .boundary, cs)
  | _ => some (fl.edge .boundary, cs)

/-- An escape, from behind the backslash on. Letters and digits without a meaning are refused. -/
def Flags.escape? (fl : Flags) : List Char → Option (Atom × List Char)
  | [] => none
  | c :: rest =>
    if c = 'x' then fl.hex? 2 (fl.skip rest)
    else if c = 'u' then fl.hex? 4 (fl.skip rest)
    else if c = 'U' then fl.hex? 8 (fl.skip rest)
    else if c = 'p' then fl.property? false rest
    else if c = 'P' then fl.property? true rest
    else if ['d', 's', 'w'].contains c then some (.set (fl.shorthand c), rest)
    else if ['D', 'S', 'W'].contains c then
      (fl.negated? true (fl.shorthand c.toLower)).map fun s => (.set s, rest)
    else if c = 'a' then some (.char '\x07', rest)
    else if c = 'f' then some (.char '\x0c', rest)
    else if c = 't' then some (.char '\t', rest)
    else if c = 'n' then some (.char '\n', rest)
    else if c = 'r' then some (.char '\r', rest)
    else if c = 'v' then some (.char '\x0b', rest)
    else if c = 'A' then some (.look .textStart, rest)
    else if c = 'z' then some (.look .textEnd, rest)
    else if c = 'b' then fl.boundary? rest
    else if c = 'B' then some (fl.edge .noBoundary, rest)
    else if c = '<' then some (fl.edge .start, rest)
    else if c = '>' then some (fl.edge .finish, rest)
    else if c.isAlphanum || 0x7F < c.toNat then none
    else some (.char c, rest)

end XmlBinding.Regex
