import XmlBinding.Text.Bytes

/-!
# Slices of a text by bytes

A text can be cut at a byte, but only between two characters and not behind its end. The text in
front of the cut and the one behind it then make up the whole.
-/
namespace XmlBinding.Text

/-- The first `n` bytes; `none` where the text is shorter or the cut is inside a character. -/
def upTo? : List Char → Nat → Option (List Char)
  | [], n => if n = 0 then some [] else none
  | c :: rest, n =>
    if n = 0 then some []
    else if c.utf8Size ≤ n then (upTo? rest (n - c.utf8Size)).map (c :: ·)
    else none

/-- What is behind the first `n` bytes. -/
def from? : List Char → Nat → Option (List Char)
  | [], n => if n = 0 then some [] else none
  | c :: rest, n =>
    if n = 0 then some (c :: rest)
    else if c.utf8Size ≤ n then from? rest (n - c.utf8Size)
    else none

/-- The bytes from `first` on up to `last`. -/
def slice? (cs : List Char) (first last : Nat) : Option (List Char) :=
  (upTo? cs last).bind (from? · first)

/-- The place of the last slash. -/
def lastSlash? : List Char → Option Nat
  | [] => none
  | c :: rest => match lastSlash? rest with
    | some n => some (c.utf8Size + n)
    | none => if c = '/' then some 0 else none

theorem byteLength_pos {cs : List Char} (h : cs ≠ []) : 0 < byteLength cs := by
  obtain ⟨c, rest, rfl⟩ := List.exists_cons_of_ne_nil h
  have hc := c.utf8Size_pos
  rw [byteLength_cons]
  omega

theorem byteLength_le_of_prefix {a b : List Char} (h : a <+: b) : byteLength a ≤ byteLength b := by
  obtain ⟨rest, rfl⟩ := h
  rw [byteLength_append]
  exact Nat.le_add_right _ _

/-! ### Cutting -/

theorem upTo?_zero (cs : List Char) : upTo? cs 0 = some [] := by
  cases cs <;> rfl

theorem from?_zero (cs : List Char) : from? cs 0 = some cs := by
  cases cs <;> rfl

/-- A text can be cut where two texts were joined. -/
theorem upTo?_append (front behind : List Char) :
    upTo? (front ++ behind) (byteLength front) = some front := by
  induction front with
  | nil => exact upTo?_zero behind
  | cons c rest ih =>
    have hc := c.utf8Size_pos
    rw [List.cons_append, byteLength_cons, upTo?, if_neg (by omega), if_pos (Nat.le_add_right _ _),
      Nat.add_sub_cancel_left, ih]
    rfl

theorem from?_append (front behind : List Char) :
    from? (front ++ behind) (byteLength front) = some behind := by
  induction front with
  | nil => exact from?_zero behind
  | cons c rest ih =>
    have hc := c.utf8Size_pos
    rw [List.cons_append, byteLength_cons, from?, if_neg (by omega), if_pos (Nat.le_add_right _ _),
      Nat.add_sub_cancel_left, ih]

theorem slice?_append (front middle behind : List Char) :
    slice? (front ++ middle ++ behind) (byteLength front) (byteLength (front ++ middle)) =
      some middle := by
  rw [slice?, upTo?_append, Option.bind_some, from?_append]

/-- A cut is nowhere else. -/
theorem upTo?_eq_some_iff {cs front : List Char} {n : Nat} :
    upTo? cs n = some front ↔ ∃ behind, cs = front ++ behind ∧ byteLength front = n := by
  constructor
  · intro h
    induction cs generalizing n front with
    | nil =>
      unfold upTo? at h
      split at h
      · next hn =>
        obtain rfl := Option.some.inj h
        exact ⟨[], rfl, hn.symm⟩
      · cases h
    | cons c rest ih =>
      unfold upTo? at h
      split at h
      · next hn =>
        obtain rfl := Option.some.inj h
        exact ⟨c :: rest, rfl, hn.symm⟩
      split at h
      · next hle =>
        obtain ⟨front, hfront, rfl⟩ := Option.map_eq_some_iff.mp h
        obtain ⟨behind, rfl, hlength⟩ := ih hfront
        refine ⟨behind, rfl, ?_⟩
        rw [byteLength_cons, hlength]
        omega
      · cases h
  · rintro ⟨behind, rfl, rfl⟩
    exact upTo?_append front behind

/-- A letter of two bytes is not cut. -/
example : upTo? ['ö', '/'] 1 = none ∧ upTo? ['ö', '/'] 2 = some ['ö'] := by decide

/-! ### The last slash -/

theorem lastSlash?_of_no_slash {cs : List Char} (h : '/' ∉ cs) : lastSlash? cs = none := by
  induction cs with
  | nil => rfl
  | cons c rest ih =>
    rw [List.mem_cons, not_or] at h
    rw [lastSlash?, ih h.2]
    exact if_neg (Ne.symm h.1)

theorem lastSlash?_append_slash (front : List Char) {last : List Char} (h : '/' ∉ last) :
    lastSlash? (front ++ '/' :: last) = some (byteLength front) := by
  induction front with
  | nil =>
    rw [List.nil_append, lastSlash?, lastSlash?_of_no_slash h]
    rfl
  | cons c rest ih =>
    rw [List.cons_append, lastSlash?, ih]
    rfl

end XmlBinding.Text
