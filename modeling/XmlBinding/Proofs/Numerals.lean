import Mathlib.Data.Nat.Digits.Defs
import XmlBinding.Calendar

/-!
# Decimal numerals

A numeral is read when it has a digit and nothing else, whatever zeros it begins with, and then as
the number that its digits spell. What is written for a number is read as this number.
-/
namespace XmlBinding.Decimal

variable {c : Char} {cs : List Char} {acc n d width : Nat}

theorem digit?_eq_some_iff : digit? c = some d ↔ c.isDigit = true ∧ d = c.toNat - '0'.toNat := by
  have hdigit : ('0' ≤ c ∧ c ≤ '9') ↔ c.isDigit = true := by
    simp [Char.isDigit, Char.le_def, UInt32.le_iff_toNat_le]
  unfold digit?
  by_cases hc : c.isDigit = true
  · rw [if_pos (hdigit.mpr hc), Option.some.injEq, eq_comm]
    exact (and_iff_right hc).symm
  · rw [if_neg (mt hdigit.mp hc)]
    exact ⟨nofun, fun h => absurd h.1 hc⟩

theorem isSome_digit? (c : Char) : (digit? c).isSome = c.isDigit := by
  rw [Bool.eq_iff_iff, Option.isSome_iff_exists]
  simp only [digit?_eq_some_iff]
  exact ⟨fun ⟨_, h, _⟩ => h, fun h => ⟨_, h, rfl⟩⟩

theorem ofDigits_eq_some_iff :
    ofDigits acc cs = some n ↔
      (∀ c ∈ cs, c.isDigit = true) ∧ n = Nat.ofDigitChars 10 cs acc := by
  induction cs generalizing acc with
  | nil =>
    rw [ofDigits, Option.some.injEq, eq_comm]
    exact (and_iff_right (nofun)).symm
  | cons c rest ih =>
    rw [List.forall_mem_cons, ofDigits]
    cases hc : digit? c with
    | none =>
      have hdigit : c.isDigit = false := by rw [← isSome_digit?, hc]; rfl
      simp [hdigit]
    | some d =>
      obtain ⟨hdigit, rfl⟩ := digit?_eq_some_iff.mp hc
      rw [ih]
      simp [hdigit, Nat.ofDigitChars]

theorem natural?_eq_some_iff :
    natural? cs = some n ↔
      cs ≠ [] ∧ (∀ c ∈ cs, c.isDigit = true) ∧ n = Nat.ofDigitChars 10 cs 0 := by
  rw [← ofDigits_eq_some_iff]
  cases cs <;> simp [natural?]

end XmlBinding.Decimal

namespace XmlBinding.Calendar

open Decimal

variable {n width : Nat}

theorem isDigit_of_mem_padded {c : Char} (h : c ∈ padded width n) : c.isDigit = true := by
  rcases List.mem_append.mp h with hzero | hdigit
  · rw [List.eq_of_mem_replicate hzero]
    rfl
  · exact Nat.isDigit_of_mem_toDigits (by decide) (by decide) hdigit

/-- Zeros in front do not count. -/
theorem ofDigitChars_replicate (k : Nat) (cs : List Char) :
    Nat.ofDigitChars 10 (List.replicate k '0' ++ cs) 0 = Nat.ofDigitChars 10 cs 0 := by
  induction k with
  | zero => rfl
  | succ k ih => exact ih

theorem natural?_padded (width n : Nat) : natural? (padded width n) = some n := by
  refine natural?_eq_some_iff.mpr ⟨?_, fun c => isDigit_of_mem_padded, ?_⟩
  · exact List.append_ne_nil_of_right_ne_nil _ Nat.toDigits_ne_nil
  · rw [padded, ofDigitChars_replicate, Nat.ofDigitChars_ten_toDigits]

theorem natural?_toDigits (n : Nat) : natural? (Nat.toDigits 10 n) = some n := by
  simpa [padded] using natural?_padded 0 n

/-- A number that is not too large takes up the width. -/
theorem length_padded (hwidth : 0 < width) (hn : n < 10 ^ width) :
    (padded width n).length = width := by
  have hlength := (Nat.length_toDigits_le_iff (by decide) hwidth).mpr hn
  rw [padded, List.length_append, List.length_replicate]
  exact Nat.sub_add_cancel hlength

end XmlBinding.Calendar
