import XmlBinding.Text.Blank
import XmlBinding.Decimal.Reading

/-!
# Dates and times

The Gregorian calendar, extended to all years that a signed day count of 32 bits can reach, with a
year 0 before year 1. A minute may end in a leap second, which is kept as second 59 with a
nanosecond field of at least 10 ^ 9.
-/
namespace XmlBinding.Calendar

def isLeap (year : Int) : Bool := year % 4 == 0 && (year % 100 != 0 || year % 400 == 0)

def daysIn (year : Int) (month : Nat) : Nat :=
  if month == 2 then if isLeap year then 29 else 28
  else if month == 4 || month == 6 || month == 9 || month == 11 then 30
  else 31

/-- A day that exists, in a year that can be represented. -/
def isDay (year : Int) (month day : Nat) : Bool :=
  -262143 ≤ year && year ≤ 262142 && 1 ≤ month && month ≤ 12 && 1 ≤ day && day ≤ daysIn year month

structure Date where
  year : Int
  month : Nat
  day : Nat
  real : isDay year month day = true
  deriving DecidableEq

/-- A time of day; only second 59 has room for a leap second. -/
def isTime (hour minute second nano : Nat) : Bool :=
  hour < 24 && minute < 60 && second < 60 && nano < 2000000000 &&
    (nano < 1000000000 || second == 59)

structure DateTime where
  date : Date
  hour : Nat
  minute : Nat
  second : Nat
  nano : Nat
  real : isTime hour minute second nano = true
  deriving DecidableEq

/-! ## Writing -/

/-- Decimal digits, filled up with zeros to a width. -/
def padded (width n : Nat) : List Char :=
  let ds := Nat.toDigits 10 n
  List.replicate (width - ds.length) '0' ++ ds

/-- Four digits; a year before 0 or after 9999 has a sign. -/
def writeYear (year : Int) : List Char :=
  if year < 0 then '-' :: padded 4 year.natAbs
  else if 9999 < year then '+' :: padded 4 year.natAbs
  else padded 4 year.natAbs

def Date.write (d : Date) : List Char :=
  writeYear d.year ++ '-' :: padded 2 d.month ++ '-' :: padded 2 d.day

/-- The second as a clock shows it, 60 in a leap second. -/
def DateTime.shownSecond (t : DateTime) : Nat := t.second + t.nano / 1000000000

/-- Whole seconds; fractions are not written. -/
def DateTime.write (t : DateTime) : List Char :=
  t.date.write ++ 'T' :: padded 2 t.hour ++ ':' :: padded 2 t.minute ++
    ':' :: padded 2 t.shownSecond

/-- The fraction of a second in three, six or nine digits, as few as it needs. -/
def writeFraction (nano : Nat) : List Char :=
  if nano = 0 then []
  else if nano % 1000000 = 0 then '.' :: padded 3 (nano / 1000000)
  else if nano % 1000 = 0 then '.' :: padded 6 (nano / 1000)
  else '.' :: padded 9 nano

/-- The date and time with its fraction. -/
def DateTime.inspect (t : DateTime) : List Char :=
  t.write ++ writeFraction (t.nano % 1000000000)

/-! ## Reading -/

/-- Read a part from the front of a text and return what follows it. -/
abbrev Reader (α : Type) := List Char → Option (α × List Char)

/-- One up to `width` decimal digits, all there are when `width` is missing. -/
def digits (width : Option Nat) : Reader Nat := fun cs =>
  let ds := cs.takeWhile (Decimal.digit? · |>.isSome)
  let taken := match width with
    | some w => ds.take w
    | none => ds
  (Decimal.natural? taken).map (·, cs.drop taken.length)

/-- A field of at most two digits; white space may precede it. -/
def field : Reader Nat := fun cs => digits (some 2) (Text.trimFront cs)

/-- A year: up to four digits, or any number of them behind a sign. -/
def yearField : Reader Int := fun cs =>
  match Text.trimFront cs with
  | '-' :: rest => (digits none rest).map fun (n, rest) => (-(n : Int), rest)
  | '+' :: rest => (digits none rest).map fun (n, rest) => ((n : Int), rest)
  | rest => (digits (some 4) rest).map fun (n, rest) => ((n : Int), rest)

def literal (c : Char) : Reader Unit
  | d :: rest => if d = c then some ((), rest) else none
  | [] => none

/-- Year, month and day with hyphens between them. -/
def dateField : Reader Date := fun cs => do
  let (year, cs) ← yearField cs
  let (_, cs) ← literal '-' cs
  let (month, cs) ← field cs
  let (_, cs) ← literal '-' cs
  let (day, cs) ← field cs
  if h : isDay year month day then some (⟨year, month, day, h⟩, cs) else none

/-- A fraction of a second in nanoseconds: a point and digits, those after the ninth dropped, or
nothing. -/
def fraction : Reader Nat
  | '.' :: rest =>
    let ds := rest.takeWhile (Decimal.digit? · |>.isSome)
    let kept := ds.take 9
    (Decimal.natural? kept).map fun n => (n * Nat.pow 10 (9 - kept.length), rest.drop ds.length)
  | cs => some (0, cs)

/-- Hour, minute and second with colons between them. Second 60 is the leap second. -/
def clock (withFraction : Bool) (date : Date) : Reader DateTime := fun cs => do
  let (hour, cs) ← field cs
  let (_, cs) ← literal ':' cs
  let (minute, cs) ← field cs
  let (_, cs) ← literal ':' cs
  let (shown, cs) ← field cs
  let (part, cs) ← if withFraction then fraction cs else some (0, cs)
  let second := if shown = 60 then 59 else shown
  let nano := if shown = 60 then 1000000000 + part else part
  if h : isTime hour minute second nano then some (⟨date, hour, minute, second, nano, h⟩, cs)
  else none

/-- The result of a reader that uses all of the text. -/
def Reader.whole {α : Type} (r : Reader α) (cs : List Char) : Option α :=
  match r cs with
  | some (a, []) => some a
  | _ => none

def Date.read? (cs : List Char) : Option Date := Reader.whole dateField cs

/-- A date, then the letter T or white space, then a time. Only the form with the letter T may have
a fraction. -/
def DateTime.read? (cs : List Char) : Option DateTime := do
  let (date, rest) ← dateField cs
  let lettered (withFraction : Bool) : Reader DateTime := fun cs => do
    let (_, cs) ← literal 'T' cs
    clock withFraction date cs
  (lettered false).whole rest <|> Reader.whole (clock false date) (Text.trimFront rest) <|>
    (lettered true).whole rest

end XmlBinding.Calendar
