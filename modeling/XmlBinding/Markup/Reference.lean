import XmlBinding.Decimal.Reading

/-!
# References

What stands between `&` and `;`: one of five names, or the number of a character. In the text of an
element the marks for hexadecimal numbers may be of either case, a plus sign is allowed, and the
number may be zero; the values of attributes are read more strictly.
-/
namespace XmlBinding.Markup

/-- The characters that have a name. -/
def named? (name : List Char) : Option Char :=
  match name with
  | ['l', 't'] => some '<'
  | ['g', 't'] => some '>'
  | ['a', 'm', 'p'] => some '&'
  | ['a', 'p', 'o', 's'] => some '\''
  | ['q', 'u', 'o', 't'] => some '"'
  | _ => none

def hexDigit? (c : Char) : Option Nat :=
  if '0' ≤ c ∧ c ≤ '9' then some (c.toNat - '0'.toNat)
  else if 'a' ≤ c ∧ c ≤ 'f' then some (c.toNat - 'a'.toNat + 10)
  else if 'A' ≤ c ∧ c ≤ 'F' then some (c.toNat - 'A'.toNat + 10)
  else none

def ofHexDigits (acc : Nat) : List Char → Option Nat
  | [] => some acc
  | c :: rest => match hexDigit? c with
    | some d => ofHexDigits (16 * acc + d) rest
    | none => none

def hexadecimal? (cs : List Char) : Option Nat := if cs.isEmpty then none else ofHexDigits 0 cs

/-- The character with a number, if there is one. -/
def charOf? (n : Nat) : Option Char := if n.isValidChar then some (Char.ofNat n) else none

/-- What follows a plus sign, or everything. -/
def dropPlus : List Char → List Char
  | '+' :: rest => rest
  | cs => cs

/-- The character that a reference in the text of an element stands for. -/
def textReference? : List Char → Option Char
  | '#' :: 'x' :: hex | '#' :: 'X' :: hex => (hexadecimal? (dropPlus hex)).bind charOf?
  | '#' :: digits => (Decimal.natural? (dropPlus digits)).bind charOf?
  | name => named? name

/-- The character that a reference in the value of an attribute stands for. -/
def valueReference? : List Char → Option Char
  | '#' :: 'x' :: hex => ((hexadecimal? hex).filter (· ≠ 0)).bind charOf?
  | '#' :: digits => ((Decimal.natural? digits).filter (· ≠ 0)).bind charOf?
  | name => named? name

/-- The value of an attribute with its references resolved. The text of a reference ends at the
first semicolon or ampersand, and it has to be a semicolon. -/
def resolve? (cs : List Char) : Option (List Char) :=
  go [] none cs
where
  /-- `name` is the reversed beginning of a reference, inside one. -/
  go (done : List Char) (name : Option (List Char)) : List Char → Option (List Char)
    | [] => match name with
      | none => some done.reverse
      | some _ => none
    | c :: rest => match name with
      | none => if c = '&' then go done (some []) rest else go (c :: done) none rest
      | some part =>
        if c = ';' then
          match valueReference? part.reverse with
          | some resolved => go (resolved :: done) none rest
          | none => none
        else if c = '&' then none
        else go done (some (c :: part)) rest

example : resolve? "a&lt;&#65;&#x42;".toList = some "a<AB".toList := by decide
example : resolve? "a&b".toList = none ∧ resolve? "&#0;".toList = none := by decide
example : textReference? "#+65".toList = some 'A' ∧ textReference? "#0".toList = some '\x00' := by
  decide

end XmlBinding.Markup
