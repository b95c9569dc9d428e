/-!
# Shell patterns

`*` stands for any characters, slashes included, `?` for one, and brackets for one character of a
class. `**` is a whole segment and stands for any number of segments.
-/
namespace XmlBinding.Glob

/-- A part of a class: the characters from `first` to `last`. -/
structure Range where
  first : Char
  last : Char

inductive Token
  | exactly (c : Char)
  | one
  | oneOf (ranges : List Range)
  | noneOf (ranges : List Range)
  | many
  | segments

/-- The content of a class: single characters, and ranges with a hyphen inside. -/
def ranges : List Char → List Range
  | a :: '-' :: b :: rest => ⟨a, b⟩ :: ranges rest
  | a :: rest => ⟨a, a⟩ :: ranges rest
  | [] => []

/-- Split at the first closing bracket, which is dropped. -/
def untilBracket : List Char → Option (List Char × List Char)
  | [] => none
  | ']' :: rest => some ([], rest)
  | c :: rest => (untilBracket rest).map fun (front, back) => (c :: front, back)

theorem untilBracket_length {cs front back : List Char}
    (h : untilBracket cs = some (front, back)) : back.length < cs.length := by
  induction cs generalizing front with
  | nil => simp [untilBracket] at h
  | cons c rest ih =>
    unfold untilBracket at h
    split at h
    · simp at h
    · next heq => simp_all
    · next c' rest' _ heq =>
      simp only [List.cons.injEq] at heq
      obtain ⟨rfl, rfl⟩ := heq
      cases hr : untilBracket rest with
      | none => simp [hr] at h
      | some p =>
        obtain ⟨f, b⟩ := p
        simp only [hr, Option.map_some, Option.some.injEq, Prod.mk.injEq] at h
        obtain ⟨_, rfl⟩ := h
        have := ih hr
        simp; omega

/-- The class behind an opening bracket, and what follows it. The first character of a class is
never its end. -/
def bracket? : List Char → Option (Token × List Char)
  | '!' :: c :: rest => (untilBracket rest).map fun (front, back) =>
    (.noneOf (ranges (c :: front)), back)
  | '!' :: [] => none
  | c :: rest => (untilBracket rest).map fun (front, back) => (.oneOf (ranges (c :: front)), back)
  | [] => none

theorem bracket?_length {cs back : List Char} {t : Token} (h : bracket? cs = some (t, back)) :
    back.length < cs.length := by
  unfold bracket? at h
  split at h <;> simp only [Option.map_eq_some_iff, Prod.mk.injEq, Prod.exists, reduceCtorEq] at h
  all_goals
    obtain ⟨front, b, hu, _, rfl⟩ := h
    have := untilBracket_length hu
    simp; omega

/-- Read a pattern; `afterSlash` says that a segment starts here. `none` means that the pattern is
malformed. -/
def tokens? (afterSlash : Bool) (cs : List Char) : Option (List Token) :=
  match cs with
  | [] => some []
  | '*' :: '*' :: '*' :: _ => none
  | '*' :: '*' :: rest =>
    if afterSlash then match rest with
      | [] => some [.segments]
      | '/' :: rest => (tokens? true rest).map (.segments :: ·)
      | _ => none
    else none
  | '*' :: rest => (tokens? false rest).map (.many :: ·)
  | '?' :: rest => (tokens? false rest).map (.one :: ·)
  | '[' :: rest => match h : bracket? rest with
    | some (t, back) =>
      have := bracket?_length h
      (tokens? false back).map (t :: ·)
    | none => none
  | c :: rest => (tokens? (c == '/') rest).map (.exactly c :: ·)
  termination_by cs.length

def holds (rs : List Range) (c : Char) : Bool := rs.any fun r => r.first ≤ c && c ≤ r.last

/-- What is left of each text behind a first character with the property. -/
def behind (holds : Char → Bool) (texts : List (List Char)) : List (List Char) :=
  texts.filterMap fun
    | c :: rest => if holds c then some rest else none
    | [] => none

/-- The ends of a text, the longest first. -/
def ends : List Char → List (List Char)
  | [] => [[]]
  | c :: rest => (c :: rest) :: ends rest

/-- The ends of a text that follow one of its slashes, and the empty one. -/
def segmentEnds : List Char → List (List Char)
  | [] => [[]]
  | c :: rest => if c = '/' ∧ !rest.isEmpty then rest :: segmentEnds rest else segmentEnds rest

/-- What may be left behind a token, where `texts` may be left in front of it. They are ends of one
text, the longest first, so whatever a token can skip is skipped from the first. -/
def step (texts : List (List Char)) : Token → List (List Char)
  | .exactly d => behind (· == d) texts
  | .one => behind (fun _ => true) texts
  | .oneOf rs => behind (holds rs) texts
  | .noneOf rs => behind (!holds rs ·) texts
  | .many => match texts with
    | longest :: _ => ends longest
    | [] => []
  | .segments => match texts with
    | longest :: _ => longest :: segmentEnds longest
    | [] => []

def accepts (tokens : List Token) (cs : List Char) : Bool :=
  (tokens.foldl step [cs]).any List.isEmpty

end XmlBinding.Glob
