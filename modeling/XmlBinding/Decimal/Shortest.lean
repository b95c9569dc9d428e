/-!
# The shortest decimal that reads back

A binary fraction `m · 2 ^ q` stands for every real that rounds to it. Of the decimals in that
interval the ones with the fewest digits are considered, and of those the nearest one is chosen.
All arithmetic is on natural numbers. Two styles put the digits on paper.
-/
namespace XmlBinding.Decimal

/-- The number `digits · 10 ^ exponent`. -/
structure Digits where
  digits : Nat
  exponent : Int
  deriving Repr, DecidableEq

/-- A positive binary fraction `mantissa · 2 ^ exponent`. `narrow` says that the neighbour below is
only half as far away as the one above. -/
structure Binary where
  mantissa : Nat
  exponent : Int
  narrow : Bool

namespace Binary

/-- The exponent of ten of the first digit of `num / den`. -/
def magnitude (num den : Nat) : Int :=
  if den ≤ num then ((Nat.toDigits 10 (num / den)).length - 1 : Nat)
  else
    let t := (Nat.toDigits 10 (den / num)).length - 1
    if den ≤ num * Nat.pow 10 t then -(t : Int) else -(t + 1 : Int)

/-- The neighbours of the value on the grid of multiples of `10 ^ j` that lie in its interval; the
nearer one, or the upper one when both are equally near. -/
def onGrid? (b : Binary) (j : Int) : Option Digits :=
  let q := b.exponent - 2
  let unit := Nat.pow 2 q.toNat * Nat.pow 10 (-j).toNat
  let den := Nat.pow 2 (-q).toNat * Nat.pow 10 j.toNat
  let value := 4 * b.mantissa * unit
  let low := (4 * b.mantissa - if b.narrow then 1 else 2) * unit
  let high := (4 * b.mantissa + 2) * unit
  let inside (c : Nat) : Bool :=
    if b.mantissa % 2 = 0 then low ≤ c * den && c * den ≤ high
    else low < c * den && c * den < high
  let down := value / den
  let up := down + 1
  if inside down && (!inside up || value - down * den < up * den - value) then some ⟨down, j⟩
  else if inside up then some ⟨up, j⟩
  else none

/-- The first grid that has a point in the interval, from one digit to seventeen. -/
def shortest (b : Binary) : Digits :=
  let top := magnitude (b.mantissa * Nat.pow 2 b.exponent.toNat) (Nat.pow 2 (-b.exponent).toNat)
  ((List.range 17).findSome? fun (n : Nat) => b.onGrid? (top - n)).getD ⟨b.mantissa, 0⟩

end Binary

/-- The digits of a number from the first to the last that is not zero. -/
def Digits.normal (d : Digits) : List Char × Int :=
  let cs := Nat.toDigits 10 d.digits
  let kept := (cs.reverse.dropWhile (· == '0')).reverse
  (kept, d.exponent + (cs.length - kept.length : Nat))

/-- How the digits of a number are laid out. -/
structure Style where
  /-- A whole number ends in `.0`. -/
  wholeMark : Bool
  /-- Whether a number whose first digit has this exponent of ten is written with an exponent. -/
  scientific : Int → Bool

/-- Plain text: never an exponent, and no point in a whole number. -/
def Style.plain : Style := ⟨false, fun _ => false⟩

/-- Text for inspection: always a point or an exponent, which stands for numbers from `10 ^ 16` on
and below `10 ^ -4`. -/
def Style.inspected : Style := ⟨true, fun e => 16 ≤ e || e < -4⟩

/-- Digits with the point in its place and zeros up to it. -/
def positional (style : Style) (ds : List Char) (exponent : Int) : List Char :=
  let places := (-exponent).toNat
  if 0 ≤ exponent then
    ds ++ List.replicate exponent.toNat '0' ++ if style.wholeMark then ['.', '0'] else []
  else if places < ds.length then
    ds.take (ds.length - places) ++ '.' :: ds.drop (ds.length - places)
  else '0' :: '.' :: List.replicate (places - ds.length) '0' ++ ds

/-- One digit before the point and the exponent of ten behind the letter e. -/
def scientific (ds : List Char) (first : Int) : List Char :=
  let fraction := if ds.length ≤ 1 then [] else '.' :: ds.drop 1
  ds.take 1 ++ fraction ++ 'e' :: (toString first).toList

def Digits.render (style : Style) (d : Digits) : List Char :=
  let (ds, exponent) := d.normal
  let first := exponent + ds.length - 1
  if style.scientific first then Decimal.scientific ds first else positional style ds exponent

/-- The finite and the other values of a 64-bit float. -/
inductive Parts
  | finite (negative : Bool) (magnitude : Option Binary)
  | infinite (negative : Bool)
  | notANumber

/-- Take a float apart by its bits; zero has no magnitude. -/
def Parts.ofBits (bits : UInt64) : Parts :=
  let n := bits.toNat
  let negative := n / Nat.pow 2 63 == 1
  let biased : Nat := n / Nat.pow 2 52 % 2048
  let fraction : Nat := n % Nat.pow 2 52
  if biased = 2047 then
    if fraction = 0 then .infinite negative else .notANumber
  else if biased = 0 then
    .finite negative (if fraction = 0 then none else some ⟨fraction, -1074, false⟩)
  else
    let narrow := fraction == 0 && 1 < biased
    .finite negative (some ⟨Nat.pow 2 52 + fraction, (biased : Int) - 1075, narrow⟩)

def Parts.render (style : Style) : Parts → List Char
  | .notANumber => "NaN".toList
  | .infinite negative => if negative then "-inf".toList else "inf".toList
  | .finite negative magnitude =>
    let value := match magnitude with
      | none => if style.wholeMark then "0.0".toList else "0".toList
      | some b => b.shortest.render style
    if negative then '-' :: value else value

/-- The shortest text that reads back as this float. -/
def render (style : Style) (x : Float) : String :=
  String.ofList ((Parts.ofBits x.toBits).render style)

example : (Parts.ofBits 0x3FB999999999999A).render .plain = "0.1".toList := by decide +kernel
example : (Parts.ofBits 1).render .inspected = "5e-324".toList := by decide +kernel
example : (Parts.ofBits 0x444B1AE4D6E2EF50).render .plain = "1000000000000000000000".toList := by
  decide +kernel

end XmlBinding.Decimal
