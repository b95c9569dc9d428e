import XmlBinding.Proofs.Slices
import XmlBinding.Proofs.Trace.Extents

/-!
# Lines in a table

The places where lines begin stand in a table in ascending order. The line of an offset is found by
halving the table, and its column by counting the characters of a slice. Each of these steps can
fail, where a row is read that is not there. None of them does, whatever the offset, and the
position they find is the one that a walk through the text comes to.
-/
namespace XmlBinding

open Text (byteLength byteLength_cons byteLength_append slice? slice?_append upTo?)

/-! ### The table -/

namespace Lines

/-- The byte behind each line feed of a text that begins at the byte `byte`. -/
def startsFrom (byte : Nat) : List Char → List Nat
  | [] => []
  | c :: rest =>
    if c = '\n' then (byte + 1) :: startsFrom (byte + 1) rest
    else startsFrom (byte + c.utf8Size) rest

/-- Where the lines of a text begin. -/
def table (text : List Char) : List Nat := 0 :: startsFrom 0 text

/-- Go on halving the `size` rows from `base` on until a single one is left. The answer is how many
rows are not greater than `offset`, and `none` where a row is read that is not there. -/
def halve (rows : List Nat) (offset base size : Nat) : Option Nat :=
  if size ≤ 1 then rows[base]?.map fun row => if row ≤ offset then base + 1 else base
  else match rows[base + size / 2]? with
    | none => none
    | some row =>
      halve rows offset (if row ≤ offset then base + size / 2 else base) (size - size / 2)
termination_by size
decreasing_by omega

/-- How many rows of an ascending table are not greater than `offset`. -/
def reached? (rows : List Nat) (offset : Nat) : Option Nat :=
  if rows = [] then some 0 else halve rows offset 0 rows.length

/-- The position of an offset by way of the table, `none` where a step fails. A slice that does not
exist is no failure: the column is the first one then. -/
def position? (text : List Char) (offset : Nat) : Option Position := do
  let line := max (← reached? (table text) offset) 1
  let start ← (table text)[line - 1]?
  let inLine := (slice? text start (min offset (byteLength text))).map List.length
  return ⟨line, inLine.getD 0 + 1⟩

section
variable {below above : List Nat} {offset : Nat}

theorem exists_row (hbelow : ∀ row ∈ below, row ≤ offset) (habove : ∀ row ∈ above, offset < row)
    {i : Nat} (hi : i < below.length + above.length) :
    ∃ row, (below ++ above)[i]? = some row ∧ (row ≤ offset ↔ i < below.length) := by
  by_cases hin : i < below.length
  · refine ⟨below[i], ?_, fun _ => hin, fun _ => hbelow _ (List.getElem_mem hin)⟩
    rw [List.getElem?_append_left hin, List.getElem?_eq_getElem hin]
  · have hrest : i - below.length < above.length := by omega
    have hlt := habove _ (List.getElem_mem hrest)
    refine ⟨above[i - below.length], ?_, fun h => absurd hlt (Nat.not_lt.mpr h),
      fun h => absurd h hin⟩
    rw [List.getElem?_append_right (Nat.le_of_not_lt hin), List.getElem?_eq_getElem hrest]

/-- The number sought stays between the ends of the rows that are left. -/
theorem halve_eq (hbelow : ∀ row ∈ below, row ≤ offset) (habove : ∀ row ∈ above, offset < row)
    {base size : Nat} (hpos : 0 < size) (hend : base + size ≤ below.length + above.length)
    (hfirst : base ≤ below.length) (hlast : below.length ≤ base + size) :
    halve (below ++ above) offset base size = some below.length := by
  induction size using Nat.strongRecOn generalizing base with
  | ind size ih =>
    unfold halve
    split
    · obtain ⟨row, hrow, hreached⟩ := exists_row hbelow habove (i := base) (by omega)
      rw [hrow, Option.map_some]
      by_cases hle : row ≤ offset
      · have hin := hreached.mp hle
        rw [if_pos hle]
        exact congrArg some (by omega)
      · have hout := mt hreached.mpr hle
        rw [if_neg hle]
        exact congrArg some (by omega)
    · obtain ⟨row, hrow, hreached⟩ := exists_row hbelow habove (i := base + size / 2) (by omega)
      simp only [hrow]
      by_cases hle : row ≤ offset
      · have hin := hreached.mp hle
        rw [if_pos hle]
        exact ih _ (by omega) (by omega) (by omega) (by omega) (by omega)
      · have hout := mt hreached.mpr hle
        rw [if_neg hle]
        exact ih _ (by omega) (by omega) (by omega) hfirst (by omega)

theorem reached?_eq (hbelow : ∀ row ∈ below, row ≤ offset) (habove : ∀ row ∈ above, offset < row) :
    reached? (below ++ above) offset = some below.length := by
  unfold reached?
  split
  · next hnil => rw [(List.append_eq_nil_iff.mp hnil).1, List.length_nil]
  · next hrows =>
    have hpos := List.length_pos_iff.mpr hrows
    have hlength : (below ++ above).length = below.length + above.length := List.length_append
    exact halve_eq hbelow habove hpos (by omega) (Nat.zero_le _) (by omega)

end

/-! ### Rows of the table -/

theorem startsFrom_append (byte : Nat) (front back : List Char) :
    startsFrom byte (front ++ back) =
      startsFrom byte front ++ startsFrom (byte + byteLength front) back := by
  induction front generalizing byte with
  | nil => rfl
  | cons c rest ih =>
    rw [List.cons_append, startsFrom, startsFrom, byteLength_cons, ← Nat.add_assoc]
    split
    · next hc =>
      subst hc
      rw [ih, List.cons_append]
      rfl
    · exact ih _

theorem startsFrom_bounds {byte row : Nat} {text : List Char} (h : row ∈ startsFrom byte text) :
    byte < row ∧ row ≤ byte + byteLength text := by
  induction text generalizing byte with
  | nil => cases h
  | cons c rest ih =>
    have hsize := c.utf8Size_pos
    rw [startsFrom] at h
    rw [byteLength_cons]
    split at h
    · rcases List.mem_cons.mp h with rfl | hrest
      · exact ⟨Nat.lt_succ_self _, by omega⟩
      · have := ih hrest
        omega
    · have := ih h
      omega

theorem length_table (text : List Char) : (table text).length = text.count '\n' + 1 := by
  have hstarts : ∀ byte, (startsFrom byte text).length = text.count '\n' := by
    induction text with
    | nil => exact fun _ => rfl
    | cons c rest ih =>
      intro byte
      rw [startsFrom, List.count_cons]
      split
      · next hc =>
        subst hc
        rw [List.length_cons, ih]
        rfl
      · next hc =>
        rw [ih, if_neg (by simpa using hc), Nat.add_zero]
  rw [table, List.length_cons, hstarts]

theorem count_lt_length_table (text : List Char) : text.count '\n' < (table text).length := by
  rw [length_table]
  exact Nat.lt_succ_self _

theorem table_append (front back : List Char) :
    table (front ++ back) = table front ++ startsFrom (byteLength front) back := by
  rw [table, startsFrom_append, Nat.zero_add]
  rfl

theorem le_of_mem_table {row : Nat} {text : List Char} (h : row ∈ table text) :
    row ≤ byteLength text := by
  rcases List.mem_cons.mp h with rfl | hstart
  · exact Nat.zero_le _
  · have := startsFrom_bounds hstart
    omega

/-- The last row of the table is where the last line begins. -/
theorem exists_lastLine (front : List Char) : ∃ lines last : List Char, front = lines ++ last ∧
    (table front)[front.count '\n']? = some (byteLength lines) ∧
    (Position.behind front).column = last.length + 1 := by
  induction front using List.reverseRecOn with
  | nil => exact ⟨[], [], rfl, rfl, rfl⟩
  | append_singleton front c ih =>
    obtain ⟨lines, last, hfront, hrow, hcolumn⟩ := ih
    rw [Position.behind_append, table_append, Position.next, List.count_append]
    by_cases hc : c = '\n'
    · subst hc
      refine ⟨front ++ ['\n'], [], (List.append_nil _).symm, ?_, rfl⟩
      rw [show front.count '\n' + List.count '\n' ['\n'] = (table front).length from
        (length_table front).symm, List.getElem?_append_right (Nat.le_refl _), Nat.sub_self,
        byteLength_append]
      rfl
    · refine ⟨lines, last ++ [c], by rw [hfront, List.append_assoc], ?_, ?_⟩
      · have hcount : List.count '\n' [c] = 0 :=
          List.count_eq_zero_of_not_mem (by simpa using Ne.symm hc)
        rw [hcount, Nat.add_zero, List.getElem?_append_left (count_lt_length_table front), hrow]
      · rw [if_neg hc, List.length_append]
        exact congrArg (· + 1) hcolumn

/-! ### Every offset -/

/-- An offset lies between two characters, inside a character, or behind the text. -/
inductive Lies (text : List Char) (offset : Nat) : Prop where
  | between (front back : List Char) (htext : text = front ++ back)
      (hoffset : offset = byteLength front)
  | inside (front : List Char) (c : Char) (back : List Char) (htext : text = front ++ c :: back)
      (hfirst : byteLength front < offset) (hlast : offset < byteLength front + c.utf8Size)
  | behind (hoffset : byteLength text < offset)

theorem lies (text : List Char) (offset : Nat) : Lies text offset := by
  induction text generalizing offset with
  | nil =>
    rcases Nat.eq_zero_or_pos offset with hzero | hpos
    · exact .between [] [] rfl hzero
    · exact .behind hpos
  | cons c rest ih =>
    rcases Nat.lt_or_ge offset c.utf8Size with hlt | hge
    · rcases Nat.eq_zero_or_pos offset with hzero | hpos
      · exact .between [] (c :: rest) rfl hzero
      · exact .inside [] c rest rfl hpos (by rw [show byteLength [] = 0 from rfl]; omega)
    · have hsize := byteLength_cons c
      cases ih (offset - c.utf8Size) with
      | between front back htext hoffset =>
        refine .between (c :: front) back (by rw [htext]; rfl) ?_
        rw [hsize]
        omega
      | inside front d back htext hfirst hlast =>
        refine .inside (c :: front) d back (by rw [htext]; rfl) ?_ ?_ <;> rw [hsize] <;> omega
      | behind hoffset =>
        refine .behind ?_
        rw [hsize]
        omega

/-- A line feed is one byte long. -/
theorem ne_lineFeed_of_inside {c : Char} {first offset : Nat} (hfirst : first < offset)
    (hlast : offset < first + c.utf8Size) : c ≠ '\n' := by
  rintro rfl
  rw [show Char.utf8Size '\n' = 1 from rfl] at hlast
  omega

theorem upTo?_inside {front back : List Char} {c : Char} {offset : Nat}
    (hfirst : byteLength front < offset) (hlast : offset < byteLength front + c.utf8Size) :
    upTo? (front ++ c :: back) offset = none := by
  induction front generalizing offset with
  | nil =>
    have hpos : 0 < offset := hfirst
    have hlt : offset < 0 + c.utf8Size := hlast
    rw [List.nil_append, upTo?, if_neg (by omega), if_neg (by omega)]
  | cons d front ih =>
    rw [byteLength_cons] at hfirst hlast
    have hd := d.utf8Size_pos
    have hrest : upTo? (front ++ c :: back) (offset - d.utf8Size) = none :=
      ih (by omega) (by omega)
    rw [List.cons_append, upTo?, if_neg (by omega), if_pos (by omega), hrest, Option.map_none]

end Lines

/-! ### Positions by the table and by the walk -/

open Lines

section
variable {front : List Char} {offset : Nat}

/-- An offset is sought from any place in front of it. -/
theorem Cursor.seek_through (hoffset : byteLength front ≤ offset) (back : List Char) :
    Cursor.seek { rest := front ++ back } offset =
      Cursor.walk offset (Position.behind front) (byteLength front) back := by
  have hwalk := Cursor.walk_append ⟨1, 1⟩ 0 front back
  rw [Nat.zero_add, Position.foldl_next] at hwalk
  have hseek : Cursor.seek { rest := front ++ back } (byteLength front) =
      ⟨Position.behind front, byteLength front, back⟩ := hwalk
  rw [← Cursor.seek_seek hoffset, hseek]
  rfl

/-- The rows that an offset has reached are those of the text in front of it, and the last of them
is where its line begins. -/
theorem Lines.position?_eq {back : List Char} (hoffset : byteLength front ≤ offset)
    (htable : ∀ row ∈ startsFrom (byteLength front) back, offset < row) :
    ∃ lines last : List Char, front = lines ++ last ∧
      (Position.behind front).column = last.length + 1 ∧
      position? (front ++ back) offset =
        some ⟨(Position.behind front).line,
          ((slice? (front ++ back) (byteLength lines)
            (min offset (byteLength (front ++ back)))).map List.length).getD 0 + 1⟩ := by
  obtain ⟨lines, last, hfront, hrow, hcolumn⟩ := exists_lastLine front
  refine ⟨lines, last, hfront, hcolumn, ?_⟩
  have hreached : reached? (table (front ++ back)) offset = some (front.count '\n' + 1) := by
    rw [table_append, ← length_table front]
    exact reached?_eq (fun row hrow => Nat.le_trans (le_of_mem_table hrow) hoffset) htable
  have hstart : (table (front ++ back))[front.count '\n']? = some (byteLength lines) := by
    rw [table_append, List.getElem?_append_left (count_lt_length_table front), hrow]
  simp only [position?, hreached, Option.bind_eq_bind, Option.bind_some,
    Nat.max_eq_left (Nat.le_add_left 1 _), Nat.add_sub_cancel, hstart]
  rfl

theorem Lines.position?_between (front back : List Char) :
    position? (front ++ back) (byteLength front) = some (Position.behind front) := by
  obtain ⟨lines, last, hfront, hcolumn, hposition⟩ := position?_eq
    (Nat.le_refl (byteLength front)) fun (row : Nat) (hrow : row ∈ startsFrom _ back) =>
      (startsFrom_bounds hrow).1
  have hslice : slice? (front ++ back) (byteLength lines) (byteLength front) = some last := by
    rw [hfront]
    exact slice?_append ..
  rw [hposition, Nat.min_eq_left (by rw [byteLength_append]; exact Nat.le_add_right _ _), hslice,
    Option.map_some, Option.getD_some, ← hcolumn]

/-- An offset inside a character is on the line of that character. -/
theorem Position.ofOffset_inside {c : Char} (hfirst : byteLength front < offset)
    (hlast : offset < byteLength front + c.utf8Size) (hc : c ≠ '\n') (back : List Char) :
    ofOffset (front ++ c :: back) offset = ⟨(behind front).line, 1⟩ := by
  have hstop : ∀ p, Cursor.walk offset p (byteLength front + c.utf8Size) back =
      ⟨p, byteLength front + c.utf8Size, back⟩ := fun p => by
    cases back with
    | nil => rfl
    | cons d rest => exact if_pos (Nat.le_of_lt hlast)
  rw [ofOffset, Cursor.seek_through (Nat.le_of_lt hfirst), Cursor.walk, if_neg (by omega),
    if_neg hc, hstop, Cursor.positionOf, if_pos hlast]

theorem Position.ofOffset_behind {text : List Char} (h : byteLength text ≤ offset) :
    ofOffset text offset = behind text := by
  have hseek := Cursor.seek_through h []
  rw [List.append_nil] at hseek
  rw [ofOffset, hseek, Cursor.walk, Cursor.positionOf, if_neg (Nat.not_lt.mpr h)]

theorem Lines.position?_inside {c : Char} (hfirst : byteLength front < offset)
    (hlast : offset < byteLength front + c.utf8Size) (hc : c ≠ '\n') (back : List Char) :
    position? (front ++ c :: back) offset = some ⟨(Position.behind front).line, 1⟩ := by
  have hrows : ∀ row ∈ startsFrom (byteLength front) (c :: back), offset < row := by
    rw [startsFrom, if_neg hc]
    exact fun row hrow => Nat.lt_trans hlast (startsFrom_bounds hrow).1
  obtain ⟨lines, last, -, -, hposition⟩ := position?_eq (Nat.le_of_lt hfirst) hrows
  have hmin : min offset (byteLength (front ++ c :: back)) = offset := by
    rw [byteLength_append, byteLength_cons]
    omega
  rw [hposition, hmin, slice?, upTo?_inside hfirst hlast]
  rfl

theorem Lines.position?_behind {text : List Char} (h : byteLength text ≤ offset) :
    position? text offset = some (Position.behind text) := by
  obtain ⟨lines, last, htext, hcolumn, hposition⟩ := position?_eq h
    fun (row : Nat) (hrow : row ∈ startsFrom _ []) => nomatch hrow
  have hslice : slice? text (byteLength lines) (byteLength text) = some last := by
    have := slice?_append lines last []
    rwa [List.append_nil, ← htext] at this
  rw [List.append_nil] at hposition
  rw [hposition, Nat.min_eq_right h, hslice, Option.map_some, Option.getD_some, ← hcolumn]

/-- No step by way of the table fails, and both ways find the same position. -/
theorem Lines.position?_eq_ofOffset (text : List Char) (offset : Nat) :
    position? text offset = some (Position.ofOffset text offset) := by
  cases lies text offset with
  | between front back htext hoffset =>
    rw [htext, hoffset, position?_between, Position.ofOffset_append]
  | inside front c back htext hfirst hlast =>
    have hc := ne_lineFeed_of_inside hfirst hlast
    rw [htext, position?_inside hfirst hlast hc, Position.ofOffset_inside hfirst hlast hc]
  | behind hoffset =>
    have hle := Nat.le_of_lt hoffset
    rw [position?_behind hle, Position.ofOffset_behind hle]

end

/-! ### The order of positions -/

namespace Position

/-- By lines, and by columns within one line. -/
def Before (p q : Position) : Prop := p.line < q.line ∨ p.line = q.line ∧ p.column < q.column

theorem Before.trans {p q r : Position} (hpq : p.Before q) (hqr : q.Before r) : p.Before r := by
  unfold Before at *
  omega

theorem before_next (p : Position) (c : Char) : p.Before (p.next c) := by
  unfold next
  split
  · exact .inl (Nat.lt_succ_self _)
  · exact .inr ⟨rfl, Nat.lt_succ_self _⟩

theorem before_behind_append (front : List Char) {middle : List Char} (h : middle ≠ []) :
    (behind front).Before (behind (front ++ middle)) := by
  induction middle using List.reverseRecOn with
  | nil => exact absurd rfl h
  | append_singleton middle c ih =>
    rw [← List.append_assoc, behind_append]
    by_cases hmiddle : middle = []
    · rw [hmiddle, List.append_nil]
      exact before_next ..
    · exact (ih hmiddle).trans (before_next ..)

/-! ### Bounds -/

theorem line_behind_le (front : List Char) : (behind front).line ≤ byteLength front + 1 :=
  Nat.succ_le_succ (Nat.le_trans List.count_le_length (Text.length_le_byteLength front))

theorem column_behind_le (front : List Char) : (behind front).column ≤ byteLength front + 1 := by
  have hwhile := (List.takeWhile_sublist (· ≠ '\n') (l := front.reverse)).length_le
  rw [List.length_reverse] at hwhile
  exact Nat.succ_le_succ (Nat.le_trans hwhile (Text.length_le_byteLength front))

/-- Neither number of a position exceeds the size of the text by more than one. -/
theorem ofOffset_le (text : List Char) (offset : Nat) :
    (ofOffset text offset).line ≤ byteLength text + 1 ∧
      (ofOffset text offset).column ≤ byteLength text + 1 := by
  cases lies text offset with
  | between front back htext hoffset =>
    have hsize : byteLength front ≤ byteLength text := by
      rw [htext, byteLength_append]
      exact Nat.le_add_right ..
    rw [hoffset, htext, ofOffset_append, ← htext]
    exact ⟨Nat.le_trans (line_behind_le front) (Nat.succ_le_succ hsize),
      Nat.le_trans (column_behind_le front) (Nat.succ_le_succ hsize)⟩
  | inside front c back htext hfirst hlast =>
    rw [htext, ofOffset_inside hfirst hlast (ne_lineFeed_of_inside hfirst hlast), byteLength_append]
    refine ⟨Nat.le_trans (line_behind_le front) ?_, Nat.le_add_left ..⟩
    exact Nat.succ_le_succ (Nat.le_add_right ..)
  | behind hoffset =>
    rw [ofOffset_behind (Nat.le_of_lt hoffset)]
    exact ⟨line_behind_le text, column_behind_le text⟩

/-- What is in front of an offset between two characters gives its position: a line more than it has
line feeds, a column more than there are characters behind the last of them. These positions ascend
strictly. Every step of the way by the table succeeds, for all offsets, and no number that comes up
on it exceeds the size of the text by more than one. -/
theorem position_law (text : List Char) :
    (∀ front, front <+: text → ofOffset text (byteLength front) =
        ⟨1 + front.count '\n', 1 + (front.reverse.takeWhile (· ≠ '\n')).length⟩) ∧
      (∀ front further, front <+: text → further <+: text → byteLength front < byteLength further →
        (ofOffset text (byteLength front)).Before (ofOffset text (byteLength further))) ∧
      (∀ offset, Lines.position? text offset = some (ofOffset text offset) ∧
        (ofOffset text offset).line ≤ byteLength text + 1 ∧
        (ofOffset text offset).column ≤ byteLength text + 1) ∧
      ∀ row ∈ Lines.table text, row ≤ byteLength text := by
  have hbehind : ∀ front, front <+: text → ofOffset text (byteLength front) = behind front := by
    rintro front ⟨back, rfl⟩
    exact ofOffset_append front back
  refine ⟨fun front hfront => ?_, fun front further hfront hfurther hlt => ?_, fun offset =>
    ⟨Lines.position?_eq_ofOffset text offset, ofOffset_le text offset⟩,
    fun row hrow => le_of_mem_table hrow⟩
  · rw [hbehind front hfront, behind, Nat.add_comm 1, Nat.add_comm 1]
  · rw [hbehind front hfront, hbehind further hfurther]
    rcases List.prefix_or_prefix_of_prefix hfront hfurther with ⟨middle, rfl⟩ | hback
    · refine before_behind_append front fun hmiddle => ?_
      rw [hmiddle, List.append_nil] at hlt
      exact Nat.lt_irrefl _ hlt
    · exact absurd hlt (Nat.not_lt.mpr (Text.byteLength_le_of_prefix hback))

/-- A letter of two bytes is one column wide, and an offset inside it is no place of its own. -/
example : Lines.table ['a', '\n', 'ö', 'b'] = [0, 2] ∧
    ofOffset ['a', '\n', 'ö', 'b'] 4 = ⟨2, 2⟩ ∧ ofOffset ['a', '\n', 'ö', 'b'] 3 = ⟨2, 1⟩ := by
  decide

end Position

end XmlBinding
