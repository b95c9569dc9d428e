/-!
# Positions in a text

Lines and columns count from 1. Columns count characters, and only a line feed ends a line.
-/
namespace XmlBinding

structure Position where
  line : Nat
  column : Nat
  deriving DecidableEq, Inhabited

/-- A place in a text where a character begins or the text ends. -/
structure Cursor where
  position : Position := ⟨1, 1⟩
  byte : Nat := 0
  rest : List Char

namespace Cursor

/-- Go on from the byte `byte` at the position `p` to the first place that does not lie in front of
a byte offset. -/
def walk (offset : Nat) (p : Position) (byte : Nat) : List Char → Cursor
  | [] => ⟨p, byte, []⟩
  | c :: rest =>
    if offset ≤ byte then ⟨p, byte, c :: rest⟩
    else if c = '\n' then walk offset ⟨p.line + 1, 1⟩ (byte + 1) rest
    else walk offset ⟨p.line, p.column + 1⟩ (byte + c.utf8Size) rest

def seek (here : Cursor) (offset : Nat) : Cursor := walk offset here.position here.byte here.rest

/-- The position of an offset that was sought. One inside a character has no column of its own and
is put at column 1; one behind the text is put at its end. -/
def positionOf (here : Cursor) (offset : Nat) : Position :=
  if offset < here.byte then ⟨here.position.line, 1⟩ else here.position

theorem walk_seek {first second : Nat} (h : first ≤ second) (p : Position) (byte : Nat)
    (cs : List Char) : (walk first p byte cs).seek second = walk second p byte cs := by
  induction cs generalizing p byte with
  | nil => rfl
  | cons c rest ih =>
    by_cases hf : first ≤ byte
    · simp [walk, hf, seek]
    · have hs : ¬ second ≤ byte := by omega
      by_cases hc : c = '\n' <;> simp [walk, hf, hs, hc, ih]

/-- To seek an offset on the way to a later one changes nothing. -/
theorem seek_seek {first second : Nat} (h : first ≤ second) (here : Cursor) :
    (here.seek first).seek second = here.seek second :=
  walk_seek h here.position here.byte here.rest

end Cursor

namespace Position

def ofOffset (text : List Char) (offset : Nat) : Position :=
  (Cursor.seek { rest := text } offset).positionOf offset

/-- A position for the end of a sentence. -/
def suffix : Option Position → String
  | some p => " (line " ++ toString p.line ++ ", column " ++ toString p.column ++ ")"
  | none => ""

end Position

end XmlBinding
