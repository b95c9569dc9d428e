/-!
# Durations

The text of a span of time: the greatest unit in which the span is at least one, with as many
decimal places as are needed.
-/
namespace XmlBinding.Duration

/-- The decimal places of `rest` in `places` digits, without zeros at the end. -/
def fraction (rest places : Nat) : String :=
  let digits := Nat.toDigits 10 rest
  let padded := List.replicate (places - digits.length) '0' ++ digits
  let shown := (padded.reverse.dropWhile (· = '0')).reverse
  if shown.isEmpty then "" else "." ++ String.ofList shown

/-- A number of nanoseconds in a unit of `10 ^ places` nanoseconds. -/
def inUnit (nanos places : Nat) (unit : String) : String :=
  toString (nanos / Nat.pow 10 places) ++ fraction (nanos % Nat.pow 10 places) places ++ unit

def render (nanos : Nat) : String :=
  if 1000000000 ≤ nanos then inUnit nanos 9 "s"
  else if 1000000 ≤ nanos then inUnit nanos 6 "ms"
  else if 1000 ≤ nanos then inUnit nanos 3 "µs"
  else inUnit nanos 0 "ns"

end XmlBinding.Duration
