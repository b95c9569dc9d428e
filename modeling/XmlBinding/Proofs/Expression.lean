import XmlBinding.Pattern.Regex

/-!
# What an expression matches

An expression leads from one place of a text to others. `Leads` says which, by the rules for the
written forms: a repetition may take any number of rounds between its bounds. In a text of `n`
characters more than `n` rounds come to the same place twice, so there is no need to make more
rounds than the text has places.
-/
namespace XmlBinding.Regex

/-- A text that is cut in two, so that the cut is a place of the text. -/
structure Split where
  front : List Char
  back : List Char

namespace Split

def whole (s : Split) : List Char := s.front ++ s.back

/-- The place of the cut. -/
def place (s : Split) : Place := ⟨s.front.length, s.front.getLast?, s.back⟩

/-- One character stands between two cuts. -/
def Passes (p : Split) (c : Char) (q : Split) : Prop :=
  p.back = c :: q.back ∧ q.front = p.front ++ [c]

end Split

/-- A relation `n` times in a row. -/
def Iterated {α : Type} (R : α → α → Prop) : Nat → α → α → Prop
  | 0, p, q => p = q
  | n + 1, p, q => ∃ m, R p m ∧ Iterated R n m q

mutual

/-- An expression matches what stands between two cuts of a text. -/
def Leads : Regex → Split → Split → Prop
  | .empty, p, q => p = q
  | .char c, p, q => p.Passes c q
  | .set members, p, q => ∃ c, members.contains c = true ∧ p.Passes c q
  | .look condition, p, q => p = q ∧ condition.holds p.front.getLast? p.back.head? = true
  | .seq parts, p, q => LeadsAll parts p q
  | .either branches, p, q => LeadsAny branches p q
  | .times least most _ inner, p, q =>
    ∃ n, least ≤ n ∧ (∀ m, most = some m → n ≤ max least m) ∧ Iterated (Leads inner) n p q
  | .group _ inner, p, q => Leads inner p q

/-- The parts match one after the other. -/
def LeadsAll : List Regex → Split → Split → Prop
  | [], p, q => p = q
  | r :: rest, p, q => ∃ m, Leads r p m ∧ LeadsAll rest m q

/-- One of the branches matches. -/
def LeadsAny : List Regex → Split → Split → Prop
  | [], _, _ => False
  | r :: rest, p, q => Leads r p q ∨ LeadsAny rest p q

end

/-- The expression matches a text from its first character to its last. -/
def MatchesWhole (r : Regex) (cs : List Char) : Prop := r.Leads ⟨[], cs⟩ ⟨cs, []⟩

variable {text : List Char} {p q s : Split} {R : Split → Split → Prop}

/-! ### Going forward -/

/-- From the first place the second one is reached by going forward in the same text. -/
structure Onward (p q : Split) : Prop where
  whole : q.whole = p.whole
  length : p.front.length ≤ q.front.length

theorem Onward.refl (p : Split) : Onward p p := ⟨rfl, Nat.le_refl _⟩

theorem Onward.trans (h : Onward p s) (h' : Onward s q) : Onward p q :=
  ⟨h'.whole.trans h.whole, Nat.le_trans h.length h'.length⟩

theorem Split.Passes.onward {c : Char} (h : p.Passes c q) : Onward p q := by
  obtain ⟨hback, hfront⟩ := h
  constructor
  · rw [Split.whole, Split.whole, hback, hfront, List.append_assoc]
    rfl
  · rw [hfront, List.length_append]
    exact Nat.le_add_right _ _

/-- In one text a place is known by the number of characters in front of it. -/
theorem Split.eq_of_length (hwhole : q.whole = p.whole)
    (hlength : p.front.length = q.front.length) : p = q := by
  cases p
  cases q
  obtain ⟨rfl, rfl⟩ := List.append_inj hwhole hlength.symm
  rfl

theorem Split.length_le (hp : p.whole = text) : p.front.length ≤ text.length := by
  rw [← hp, Split.whole, List.length_append]
  exact Nat.le_add_right _ _

theorem Iterated.onward (hR : ∀ p q, R p q → Onward p q) {n : Nat} (h : Iterated R n p q) :
    Onward p q := by
  induction n generalizing p with
  | zero =>
    cases h
    exact Onward.refl _
  | succ n ih =>
    obtain ⟨m, hstep, hrest⟩ := h
    exact (hR p m hstep).trans (ih hrest)

mutual

theorem Leads.onward : ∀ {r : Regex} {p q : Split}, r.Leads p q → Onward p q
  | .empty, _, _, h => by
    cases h
    exact Onward.refl _
  | .char _, _, _, h => Split.Passes.onward h
  | .set _, _, _, ⟨_, _, h⟩ => h.onward
  | .look _, _, _, ⟨h, _⟩ => by
    cases h
    exact Onward.refl _
  | .seq _, _, _, h => LeadsAll.onward h
  | .either _, _, _, h => LeadsAny.onward h
  | .times _ _ _ _, _, _, ⟨_, _, _, h⟩ => h.onward fun _ _ => Leads.onward
  | .group _ inner, _, _, h => Leads.onward (r := inner) h

theorem LeadsAll.onward : ∀ {rs : List Regex} {p q : Split}, LeadsAll rs p q → Onward p q
  | [], _, _, h => by
    cases h
    exact Onward.refl _
  | _ :: _, _, _, ⟨_, hfirst, hrest⟩ => (Leads.onward hfirst).trans (LeadsAll.onward hrest)

theorem LeadsAny.onward : ∀ {rs : List Regex} {p q : Split}, LeadsAny rs p q → Onward p q
  | _ :: _, _, _, h => h.elim Leads.onward LeadsAny.onward

end

/-! ### Long repetitions -/

theorem iterated_add {α : Type} {R : α → α → Prop} {m n : Nat} {p q : α} :
    Iterated R (m + n) p q ↔ ∃ s, Iterated R m p s ∧ Iterated R n s q := by
  induction m generalizing p with
  | zero => simp [Iterated]
  | succ m ih =>
    rw [Nat.add_right_comm]
    simp only [Iterated, ih]
    constructor
    · rintro ⟨t, hstep, s, hfront, hback⟩
      exact ⟨s, ⟨t, hstep, hfront⟩, hback⟩
    · rintro ⟨s, ⟨t, hstep, hfront⟩, hback⟩
      exact ⟨t, hstep, s, hfront, hback⟩

theorem iterated_of_loop {α : Type} {R : α → α → Prop} {p : α} (h : R p p) (n : Nat) :
    Iterated R n p p := by
  induction n with
  | zero => rfl
  | succ n ih => exact ⟨p, h, ih⟩

/-- A repetition with more rounds than characters stays at some place in one of them, so it can
make any greater number of rounds. -/
theorem Iterated.stretch (hR : ∀ p q, R p q → Onward p q) {n : Nat} (h : Iterated R n p q) :
    n ≤ q.front.length - p.front.length ∨
      ∀ m, q.front.length - p.front.length < m → Iterated R m p q := by
  induction n generalizing p with
  | zero => exact .inl (Nat.zero_le _)
  | succ n ih =>
    obtain ⟨s, hstep, hrest⟩ := h
    have hforward := hR p s hstep
    have hlast := (hrest.onward hR).length
    by_cases hstays : p.front.length = s.front.length
    · -- This round stays where it is.
      obtain rfl := Split.eq_of_length hforward.whole hstays
      rcases ih hrest with hshort | hlong
      · by_cases hn : n + 1 ≤ q.front.length - p.front.length
        · exact .inl hn
        · refine .inr fun m hm => ?_
          obtain ⟨k, rfl⟩ : ∃ k, m = k + n := ⟨m - n, by omega⟩
          exact iterated_add.mpr ⟨p, iterated_of_loop hstep k, hrest⟩
      · exact .inr hlong
    · have hlength := hforward.length
      rcases ih hrest with hshort | hlong
      · exact .inl (by omega)
      · refine .inr fun m hm => ?_
        obtain ⟨k, rfl⟩ : ∃ k, m = k + 1 := ⟨m - 1, by omega⟩
        exact ⟨s, hstep, hlong k (by omega)⟩

/-- The rounds that a repetition makes in a text of `count` places behind those it has to make. -/
def rounds (count least : Nat) : Option Nat → Nat
  | none => count
  | some most => min (most - least) count

theorem rounds_some (count least most : Nat) :
    rounds count least (some most) = min (most - least) count := rfl

/-- No more rounds are needed than the text has places. -/
theorem exists_iterated_iff (hR : ∀ p q, R p q → Onward p q) (hp : p.whole = text) (least : Nat)
    (most : Option Nat) :
    (∃ n, least ≤ n ∧ (∀ m, most = some m → n ≤ max least m) ∧ Iterated R n p q) ↔
      ∃ s, Iterated R (min least (text.length + 1)) p s ∧
        ∃ k ≤ rounds (text.length + 1) least most, Iterated R k s q := by
  have hjoin : (∃ s, Iterated R (min least (text.length + 1)) p s ∧
      ∃ k ≤ rounds (text.length + 1) least most, Iterated R k s q) ↔
      ∃ k ≤ rounds (text.length + 1) least most,
        Iterated R (min least (text.length + 1) + k) p q := by
    simp only [iterated_add]
    constructor
    · rintro ⟨s, hfront, k, hk, hback⟩
      exact ⟨k, hk, s, hfront, hback⟩
    · rintro ⟨k, hk, s, hfront, hback⟩
      exact ⟨s, hfront, k, hk, hback⟩
  have hrounds : rounds (text.length + 1) least most ≤ text.length + 1 := by
    cases most with
    | none => exact Nat.le_refl _
    | some m => exact Nat.min_le_right _ _
  have hmost : ∀ k ≤ rounds (text.length + 1) least most, ∀ m, most = some m →
      least + k ≤ max least m := by
    rintro k hk m rfl
    rw [rounds_some] at hk
    omega
  -- A number of rounds beyond the places of the text can be changed into any other such number.
  have hstretch : ∀ {n : Nat}, Iterated R n p q → text.length < n →
      ∀ m, text.length < m → Iterated R m p q := by
    intro n h hn m hm
    have hlength := Split.length_le (((h.onward hR).whole).trans hp)
    rcases h.stretch hR with hshort | hlong
    · omega
    · exact hlong m (by omega)
  rw [hjoin]
  constructor
  · rintro ⟨n, hleast, hn, h⟩
    by_cases hlow : least ≤ text.length + 1
    · rw [Nat.min_eq_left hlow]
      by_cases hk : n - least ≤ rounds (text.length + 1) least most
      · exact ⟨n - least, hk, by rwa [Nat.add_sub_cancel' hleast]⟩
      · have hfull : rounds (text.length + 1) least most = text.length + 1 := by
          cases most with
          | none => rfl
          | some m =>
            have hm := hn m rfl
            rw [rounds_some] at hk ⊢
            omega
        exact ⟨text.length + 1, Nat.le_of_eq hfull.symm, hstretch h (by omega) _ (by omega)⟩
    · refine ⟨0, Nat.zero_le _, hstretch h (by omega) _ (by omega)⟩
  · rintro ⟨k, hk, h⟩
    by_cases hlow : least ≤ text.length + 1
    · rw [Nat.min_eq_left hlow] at h
      exact ⟨least + k, Nat.le_add_right _ _, hmost k hk, h⟩
    · refine ⟨least, Nat.le_refl _, fun m _ => Nat.le_max_left _ _, ?_⟩
      exact hstretch h (by omega) least (by omega)

end XmlBinding.Regex
