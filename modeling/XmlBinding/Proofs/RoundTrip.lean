import Mathlib.Data.List.TakeWhile
import XmlBinding.Proofs.Numerals
import XmlBinding.Value.Coercion

/-!
# Texts that are read back

The text of a truth value, of a whole number, of a character, of a date or of a time without a
fraction of a second is read as the value that it was written for. Years before 0 and after 9999
have a sign, the other ones four digits, and a leap second is written as second 60.
-/
namespace XmlBinding

open Text Calendar Decimal

/-! ### White space around a text -/

variable {cs front back rest : List Char} {c : Char}

theorem trimFront_of_head (h : ∀ c ∈ cs.head?, isBlank c = false) : trimFront cs = cs := by
  cases cs with
  | nil => rfl
  | cons c rest =>
    have hc : isBlank c = false := h c rfl
    rw [trimFront, List.dropWhile_cons, hc]
    rfl

theorem trimFront_blank_append (hfront : ∀ c ∈ front, isBlank c = true) (cs : List Char) :
    trimFront (front ++ cs) = trimFront cs :=
  List.dropWhile_append_of_pos hfront

/-- White space around a text without any is cut off. -/
theorem trimChars_around (hfront : ∀ c ∈ front, isBlank c = true)
    (hback : ∀ c ∈ back, isBlank c = true) (hcs : ∀ c ∈ cs, isBlank c = false) :
    trimChars (front ++ cs ++ back) = cs := by
  have hfirst : trimFront (cs ++ back) = cs ++ back ∨ cs = [] := by
    cases cs with
    | nil => exact .inr rfl
    | cons c rest => exact .inl (trimFront_of_head fun d hd => hcs d (by simp_all))
  have hlast : trimFront cs.reverse = cs.reverse :=
    trimFront_of_head fun c hc => hcs c (List.mem_reverse.mp (List.mem_of_mem_head? hc))
  have hback' : ∀ c ∈ back.reverse, isBlank c = true := fun c hc => hback c (List.mem_reverse.mp hc)
  rw [List.append_assoc, trimChars, trimFront_blank_append hfront]
  rcases hfirst with hfirst | rfl
  · rw [hfirst, List.reverse_append, trimFront_blank_append hback', hlast, List.reverse_reverse]
  · have hnone : trimFront back = [] := List.dropWhile_eq_nil_iff.mpr hback
    rw [List.nil_append, hnone]
    rfl

theorem isBlank_of_isDigit (h : c.isDigit = true) : isBlank c = false := by
  simp only [Char.isDigit, Bool.and_eq_true, decide_eq_true_eq, ge_iff_le,
    UInt32.le_iff_toNat_le] at h
  have hlow : 48 ≤ c.toNat := h.1
  have hhigh : c.toNat ≤ 57 := h.2
  simp only [isBlank]
  grind

/-! ### Fields -/

namespace Calendar

variable {ds : List Char} {n width : Nat}

theorem takeWhile_digits (hds : ∀ c ∈ ds, c.isDigit = true) (rest : List Char) :
    (ds ++ rest).takeWhile (fun c => (digit? c).isSome) = ds ++ rest.takeWhile Char.isDigit := by
  simp only [isSome_digit?]
  exact List.takeWhile_append_of_pos hds

/-- A field of fixed width does not depend on what stands behind it. -/
theorem digits_some_append (hn : natural? ds = some n) (rest : List Char) :
    digits (some ds.length) (ds ++ rest) = some (n, rest) := by
  simp only [digits, takeWhile_digits (natural?_eq_some_iff.mp hn).2.1, List.take_left, hn,
    List.drop_left, Option.map_some]

/-- A field of any width goes on as long as there are digits. -/
theorem digits_none_append (hn : natural? ds = some n)
    (hrest : ∀ c ∈ rest.head?, c.isDigit = false) :
    digits none (ds ++ rest) = some (n, rest) := by
  have hnone : rest.takeWhile Char.isDigit = [] := by
    cases rest with
    | nil => rfl
    | cons c rest => exact List.takeWhile_cons_of_neg (by simpa using hrest c rfl)
  simp only [digits, takeWhile_digits (natural?_eq_some_iff.mp hn).2.1, hnone, List.append_nil, hn,
    List.drop_left, Option.map_some]

theorem padded_append_head {rest : List Char} (h : c ∈ (padded width n ++ rest).head?) :
    c.isDigit = true := by
  obtain ⟨hne, hdigits, -⟩ := natural?_eq_some_iff.mp (natural?_padded width n)
  obtain ⟨d, ds, hpadded⟩ := List.exists_cons_of_ne_nil hne
  rw [hpadded] at h hdigits
  cases h
  exact hdigits c List.mem_cons_self

theorem digits_padded_append (hwidth : 0 < width) (hn : n < 10 ^ width) (rest : List Char) :
    digits (some width) (padded width n ++ rest) = some (n, rest) := by
  have h := digits_some_append (natural?_padded width n) rest
  rwa [length_padded hwidth hn] at h

/-- Two digits are read whatever stands behind them. -/
theorem field_padded_append (hn : n < 100) (rest : List Char) :
    field (padded 2 n ++ rest) = some (n, rest) := by
  rw [field, trimFront_of_head fun c hc => isBlank_of_isDigit (padded_append_head hc)]
  exact digits_padded_append (by decide) hn rest

theorem yearField_of_digit (h : ∀ c ∈ cs.head?, c.isDigit = true) :
    yearField cs = (digits (some 4) cs).map fun (n, rest) => ((n : Int), rest) := by
  rw [yearField, trimFront_of_head fun c hc => isBlank_of_isDigit (h c hc)]
  split
  · exact absurd (h _ rfl) (by decide)
  · exact absurd (h _ rfl) (by decide)
  · rfl

/-- A year in front of a character that is no digit. -/
theorem yearField_writeYear_append (year : Int) (hrest : ∀ c ∈ rest.head?, c.isDigit = false) :
    yearField (writeYear year ++ rest) = some (year, rest) := by
  have hn := natural?_padded 4 year.natAbs
  unfold writeYear
  split
  · next hneg =>
    have hyear : -(year.natAbs : Int) = year := by omega
    have hread : yearField ('-' :: (padded 4 year.natAbs ++ rest)) =
        (digits none (padded 4 year.natAbs ++ rest)).map fun (n, rest) => (-(n : Int), rest) := rfl
    rw [List.cons_append, hread, digits_none_append hn hrest]
    exact congrArg (fun y => some (y, rest)) hyear
  split
  · next hlate =>
    have hyear : (year.natAbs : Int) = year := by omega
    have hread : yearField ('+' :: (padded 4 year.natAbs ++ rest)) =
        (digits none (padded 4 year.natAbs ++ rest)).map fun (n, rest) => ((n : Int), rest) := rfl
    rw [List.cons_append, hread, digits_none_append hn hrest]
    exact congrArg (fun y => some (y, rest)) hyear
  · have hyear : (year.natAbs : Int) = year := by omega
    rw [yearField_of_digit fun c hc => padded_append_head hc,
      digits_padded_append (by decide) (by omega)]
    exact congrArg (fun y => some (y, rest)) hyear

/-! ### Dates and times -/

theorem daysIn_le (year : Int) (month : Nat) : daysIn year month ≤ 31 := by
  unfold daysIn
  grind

/-- A date is read whatever stands behind it. -/
theorem dateField_write_append (d : Date) (rest : List Char) :
    dateField (d.write ++ rest) = some (d, rest) := by
  have hreal := d.real
  have hmonth : d.month < 100 := by
    simp only [isDay, Bool.and_eq_true, decide_eq_true_eq] at hreal
    omega
  have hday : d.day < 100 := by
    have := daysIn_le d.year d.month
    simp only [isDay, Bool.and_eq_true, decide_eq_true_eq] at hreal
    omega
  have hliteral : ∀ cs, literal '-' ('-' :: cs) = some ((), cs) := fun _ => rfl
  have hwrite : d.write ++ rest = writeYear d.year ++
      '-' :: (padded 2 d.month ++ '-' :: (padded 2 d.day ++ rest)) := by
    simp [Date.write]
  rw [hwrite, dateField, yearField_writeYear_append d.year (by simp)]
  simp [hliteral, field_padded_append hmonth, field_padded_append hday, hreal]

theorem Date.read?_write (d : Date) : Date.read? d.write = some d := by
  have h := dateField_write_append d []
  rw [List.append_nil] at h
  rw [Date.read?, Reader.whole, h]

/-- A time whose text says all of it: a whole second, or the whole leap second of a minute. -/
def DateTime.IsWhole (t : DateTime) : Prop :=
  t.nano = 0 ∨ t.nano = 1000000000 ∧ t.second = 59

/-- Second 60 is read as the leap second, and any other one as it is. -/
theorem DateTime.IsWhole.shown {t : DateTime} (h : t.IsWhole) :
    t.shownSecond < 100 ∧ (if t.shownSecond = 60 then 59 else t.shownSecond) = t.second ∧
      (if t.shownSecond = 60 then 1000000000 else 0) = t.nano := by
  have hreal := t.real
  simp only [isTime, Bool.and_eq_true, decide_eq_true_eq] at hreal
  unfold shownSecond
  rcases h with hnano | ⟨hnano, hsecond⟩
  · grind
  · grind

theorem clock_write {t : DateTime} (h : t.IsWhole) :
    clock false t.date (padded 2 t.hour ++ ':' :: (padded 2 t.minute ++
      ':' :: padded 2 t.shownSecond)) = some (t, []) := by
  obtain ⟨hshown, hsecond, hnano⟩ := h.shown
  have hreal := t.real
  have hfields : t.hour < 100 ∧ t.minute < 100 := by
    simp only [isTime, Bool.and_eq_true, decide_eq_true_eq] at hreal
    omega
  have hlast := field_padded_append hshown []
  rw [List.append_nil] at hlast
  have hliteral : ∀ cs, literal ':' (':' :: cs) = some ((), cs) := fun _ => rfl
  simp [clock, hliteral, field_padded_append hfields.1, field_padded_append hfields.2, hlast,
    hsecond, hnano, hreal]

theorem DateTime.read?_write {t : DateTime} (h : t.IsWhole) : DateTime.read? t.write = some t := by
  have hwrite : t.write = t.date.write ++ 'T' :: (padded 2 t.hour ++ ':' :: (padded 2 t.minute ++
      ':' :: padded 2 t.shownSecond)) := by
    simp [DateTime.write]
  rw [hwrite, DateTime.read?, dateField_write_append]
  simp [Reader.whole, literal, clock_write h]

/-! ### What is written holds no white space -/

theorem padded_notBlank (width n : Nat) : ∀ c ∈ padded width n, isBlank c = false :=
  fun _ hc => isBlank_of_isDigit (isDigit_of_mem_padded hc)

theorem writeYear_notBlank (year : Int) : ∀ c ∈ writeYear year, isBlank c = false := by
  have hn := padded_notBlank 4 year.natAbs
  unfold writeYear
  split
  · exact List.forall_mem_cons.mpr ⟨by decide, hn⟩
  split
  · exact List.forall_mem_cons.mpr ⟨by decide, hn⟩
  · exact hn

theorem Date.write_notBlank (d : Date) : ∀ c ∈ d.write, isBlank c = false := by
  simp only [Date.write, List.forall_mem_append, List.forall_mem_cons]
  exact ⟨⟨writeYear_notBlank _, by decide, padded_notBlank _ _⟩, by decide, padded_notBlank _ _⟩

theorem DateTime.write_notBlank (t : DateTime) : ∀ c ∈ t.write, isBlank c = false := by
  simp only [DateTime.write, List.forall_mem_append, List.forall_mem_cons]
  exact ⟨⟨⟨t.date.write_notBlank, by decide, padded_notBlank _ _⟩, by decide, padded_notBlank _ _⟩,
    by decide, padded_notBlank _ _⟩

end Calendar

/-! ### Whole numbers -/

/-- The text of a whole number. -/
def writeInt (i : Int) : List Char :=
  if 0 ≤ i then Nat.toDigits 10 i.toNat else '-' :: Nat.toDigits 10 (-i).toNat

theorem toList_toString_int (i : Int) : (toString i).toList = writeInt i := by
  rw [Int.toString_eq_repr, Int.repr_eq_if, writeInt]
  split
  · rw [Nat.repr, String.toList_ofList]
  · have hminus : "-".toList = ['-'] := rfl
    rw [String.toList_append, hminus, Nat.repr, String.toList_ofList, List.singleton_append]

theorem toDigits_notBlank (n : Nat) : ∀ c ∈ Nat.toDigits 10 n, isBlank c = false :=
  fun _ hc => isBlank_of_isDigit (Nat.isDigit_of_mem_toDigits (by decide) (by decide) hc)

theorem writeInt_notBlank (i : Int) : ∀ c ∈ writeInt i, isBlank c = false := by
  unfold writeInt
  split
  · exact toDigits_notBlank _
  · exact List.forall_mem_cons.mpr ⟨by decide, toDigits_notBlank _⟩

theorem sign_toDigits (n : Nat) : sign (Nat.toDigits 10 n) = (false, Nat.toDigits 10 n) := by
  have hdigits : ∀ c ∈ Nat.toDigits 10 n, c.isDigit = true := fun c =>
    Nat.isDigit_of_mem_toDigits (by decide) (by decide)
  unfold sign
  split
  · next heq => exact absurd (hdigits '-' (heq ▸ List.mem_cons_self)) (by decide)
  · next heq => exact absurd (hdigits '+' (heq ▸ List.mem_cons_self)) (by decide)
  · rfl

theorem integer?_writeInt (i : Int) : integer? (writeInt i) = some i := by
  unfold writeInt
  split
  · next hpos =>
    have hi : (i.toNat : Int) = i := Int.toNat_of_nonneg hpos
    rw [integer?, sign_toDigits]
    simp [natural?_toDigits, hi]
  · next hneg =>
    have hi : -((-i).toNat : Int) = i := by omega
    have hsign : sign ('-' :: Nat.toDigits 10 (-i).toNat) = (true, Nat.toDigits 10 (-i).toNat) :=
      rfl
    rw [integer?, hsign]
    simp only [natural?_toDigits]
    exact congrArg some hi

theorem int64?_writeInt (i : Int64) : int64? (writeInt i.toInt) = some i := by
  rw [int64?, integer?_writeInt]
  dsimp only
  rw [if_pos ⟨i.minValue_le_toInt, i.toInt_le⟩, Int64.ofInt_toInt]

/-! ### The law -/

namespace Value

/-- A value with its type, the text of which says all of it. -/
inductive Spelled : ScalarType → Value → Prop
  | bool (b : Bool) : Spelled .bool (.bool b)
  | int (i : Int64) : Spelled .int (.int i)
  | char (c : Char) : Spelled .char (.char c)
  | date (d : Date) : Spelled .date (.date d)
  | dateTime {t : DateTime} : t.IsWhole → Spelled .dateTime (.dateTime t)

/-- The text of such a value. -/
def written : Value → List Char
  | .bool b => if b then ['t', 'r', 'u', 'e'] else ['f', 'a', 'l', 's', 'e']
  | .int i => writeInt i.toInt
  | .char c => [c]
  | .date d => d.write
  | .dateTime t => t.write
  | _ => []

variable {type : ScalarType} {v w : Value}

theorem Spelled.toList_display (h : Spelled type v) (typeName : ObjectId → String) :
    (v.display typeName).toList = v.written := by
  cases h with
  | bool b =>
    change (if b then "true" else "false").toList = _
    cases b <;> rfl
  | int i => exact toList_toString_int _
  | char c => exact String.toList_singleton c
  | date d => exact String.toList_ofList
  | dateTime => exact String.toList_ofList

theorem Spelled.notBlank (h : Spelled type v) (hchar : type ≠ .char) :
    ∀ c ∈ v.written, isBlank c = false := by
  cases h with
  | bool b => cases b <;> simp [written] <;> decide
  | int i => exact writeInt_notBlank _
  | char c => exact absurd rfl hchar
  | date d => exact d.write_notBlank
  | @dateTime t _ => exact t.write_notBlank

/-- White space around the text of a value does not count, unless it is a character. -/
theorem Spelled.read? (h : Spelled type v) {front back : List Char}
    (hfront : ∀ c ∈ front, isBlank c = true) (hback : ∀ c ∈ back, isBlank c = true)
    (hchar : type = .char → front = [] ∧ back = []) :
    read? type (String.ofList (front ++ v.written ++ back)) = some v := by
  have htrim : type ≠ .char →
      trimChars (String.ofList (front ++ v.written ++ back)).toList = v.written := by
    intro hne
    rw [String.toList_ofList]
    exact trimChars_around hfront hback (h.notBlank hne)
  cases h with
  | bool b =>
    rw [Value.read?, htrim nofun]
    cases b <;> rfl
  | int i =>
    rw [Value.read?, htrim nofun]
    exact congrArg (Option.map Value.int) (int64?_writeInt i)
  | char c =>
    obtain ⟨rfl, rfl⟩ := hchar rfl
    rw [Value.read?, String.toList_ofList]
    rfl
  | date d =>
    rw [Value.read?, htrim nofun]
    exact congrArg (Option.map Value.date) d.read?_write
  | @dateTime t ht =>
    rw [Value.read?, htrim nofun]
    exact congrArg (Option.map Value.dateTime) (DateTime.read?_write ht)

/-- What is read is no text, or the text itself. -/
theorem coerce_read? {s : String} (h : read? type s = some v) : coerce type v = .ok v := by
  have hmap : ∀ {α : Type} {o : Option α} (make : α → Value),
      (∀ a, coerce type (make a) = .ok (make a)) → o.map make = some v → coerce type v = .ok v := by
    intro α o make hmake hv
    obtain ⟨a, -, rfl⟩ := Option.map_eq_some_iff.mp hv
    exact hmake a
  cases type with
  | any | string =>
    cases h
    rfl
  | bool => exact hmap .bool (fun _ => rfl) h
  | int => exact hmap .int (fun _ => rfl) h
  | float => exact hmap .float (fun _ => rfl) h
  | date => exact hmap .date (fun _ => rfl) h
  | dateTime => exact hmap .dateTime (fun _ => rfl) h
  | char =>
    unfold Value.read? at h
    dsimp only at h
    split at h
    · cases h
      rfl
    · cases h

/-- What comes out of a conversion passes the same conversion. -/
theorem coerce_coerce (h : coerce type w = .ok v) : coerce type v = .ok v := by
  cases w with
  | text s =>
    cases hread : read? type s with
    | none =>
      rw [coerce, hread] at h
      cases h
    | some x =>
      rw [coerce, hread] at h
      cases h
      exact coerce_read? hread
  | _ =>
    cases h
    rfl

/-- **Texts are read back.** The text of a value that it says all of is converted to this value,
also with white space around it if it is no character; and what a conversion results in is left as
it is by the same conversion. -/
theorem round_trip_law :
    (∀ type v, Spelled type v → ∀ (typeName : ObjectId → String) (front back : List Char),
      (∀ c ∈ front ++ back, isBlank c = true) → (type = .char → front ++ back = []) →
      coerce type (.text (String.ofList (front ++ (v.display typeName).toList ++ back))) =
        .ok v) ∧
      ∀ type w x, coerce type w = .ok x → coerce type x = .ok x := by
  refine ⟨?_, fun type w x => coerce_coerce⟩
  intro type v h typeName front back hblank hchar
  obtain ⟨hfront, hback⟩ := List.forall_mem_append.mp hblank
  have hread := h.read? hfront hback fun htype => List.append_eq_nil_iff.mp (hchar htype)
  rw [coerce, h.toList_display, hread]

/-- The leap second at the end of a year before year 0, and the least whole number. -/
theorem round_trip_of_a_leap_second :
    let t : DateTime := ⟨⟨-1, 12, 31, by decide⟩, 23, 59, 59, 1000000000, by decide⟩
    (Value.dateTime t).display (fun _ => "") = "-0001-12-31T23:59:60" ∧
      coerce .dateTime (.text " -0001-12-31T23:59:60\n") = .ok (.dateTime t) ∧
      coerce .int (.text "-9223372036854775808") = .ok (.int Int64.minValue) ∧
      coerce .int (.int Int64.minValue) = .ok (.int Int64.minValue) := by
  intro t
  obtain ⟨hread, hagain⟩ := round_trip_law
  have htime : (Value.dateTime t).display (fun _ => "") = "-0001-12-31T23:59:60" := by
    change String.ofList t.write = _
    decide
  have hleast : (Value.int Int64.minValue).display (fun _ => "") = "-9223372036854775808" := by
    change toString Int64.minValue.toInt = _
    decide
  have hint := hread _ _ (.int Int64.minValue) (fun _ => "") [] [] nofun nofun
  rw [hleast] at hint
  have hdate := hread _ _ (.dateTime (t := t) (.inr ⟨rfl, rfl⟩)) (fun _ => "") [' '] ['\n']
    (List.forall_mem_cons.mpr ⟨rfl, List.forall_mem_singleton.mpr rfl⟩) nofun
  rw [htime] at hdate
  exact ⟨htime, hdate, hint, hagain _ _ _ hint⟩

end Value

end XmlBinding
