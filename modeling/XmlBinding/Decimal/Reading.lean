/-!
# Reading numbers

Whole numbers are one optional sign and decimal digits. Floats may have a point, an exponent, or be
one of the words for infinity and for no number.
-/
namespace XmlBinding.Decimal

def digit? (c : Char) : Option Nat :=
  if '0' ≤ c ∧ c ≤ '9' then some (c.toNat - '0'.toNat) else none

/-- The number that digits spell, after the digits of `acc`. -/
def ofDigits (acc : Nat) : List Char → Option Nat
  | [] => some acc
  | c :: rest => match digit? c with
    | some d => ofDigits (10 * acc + d) rest
    | none => none

def natural? (cs : List Char) : Option Nat := if cs.isEmpty then none else ofDigits 0 cs

/-- A leading sign, as "is negative", and what follows it. -/
def sign : List Char → Bool × List Char
  | '-' :: rest => (true, rest)
  | '+' :: rest => (false, rest)
  | cs => (false, cs)

def integer? (cs : List Char) : Option Int :=
  let (negative, rest) := sign cs
  (natural? rest).map fun n => if negative then -(n : Int) else n

def int64? (cs : List Char) : Option Int64 :=
  match integer? cs with
  | some i => if Int64.minValue.toInt ≤ i ∧ i ≤ Int64.maxValue.toInt then some (.ofInt i) else none
  | none => none

/-- The part before the first character with property `p`, and the part from it on. -/
def cut (p : Char → Bool) (cs : List Char) : List Char × List Char :=
  (cs.takeWhile (!p ·), cs.dropWhile (!p ·))

/-- The float nearest to `digits · 10 ^ exponent`, without large powers where the result is
certainly zero or infinite. -/
def nearest (digits : Nat) (exponent : Int) : Float :=
  let size : Int := (Nat.toDigits 10 digits).length + exponent
  if digits = 0 ∨ size < -330 then 0
  else if 320 < size then 1 / 0
  else if 0 ≤ exponent then .ofScientific digits false exponent.toNat
  else .ofScientific digits true (-exponent).toNat

/-- Digits with an optional point, at least one digit in all. -/
def mantissa? (cs : List Char) : Option (Nat × Nat) :=
  let (whole, rest) := cut (· == '.') cs
  let fraction := rest.drop 1
  if whole.isEmpty && fraction.isEmpty then none
  else (ofDigits 0 (whole ++ fraction)).map (·, fraction.length)

/-- A mantissa and an optional exponent behind the letter e. -/
def unsigned? (cs : List Char) : Option Float :=
  let (front, rest) := cut (fun c => c == 'e' || c == 'E') cs
  match mantissa? front, rest with
  | some (digits, places), [] => some (nearest digits (-(places : Int)))
  | some (digits, places), _ :: power => (integer? power).map fun e => nearest digits (e - places)
  | none, _ => none

def float? (cs : List Char) : Option Float :=
  let (negative, rest) := sign cs
  let word := String.ofList (rest.map Char.toLower)
  let value :=
    if word == "inf" || word == "infinity" then some (1 / 0)
    else if word == "nan" then some (0 / 0)
    else unsigned? rest
  value.map fun x => if negative then -x else x

example : integer? "+12".toList = some 12 ∧ integer? "+-1".toList = none := by decide
example : mantissa? ".5".toList = some (5, 1) ∧ mantissa? ".".toList = none := by decide

end XmlBinding.Decimal
