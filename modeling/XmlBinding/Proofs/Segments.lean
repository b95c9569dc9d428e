import Mathlib.Data.List.TakeWhile
import XmlBinding.Pattern

/-!
# Paths as lists of segments

The tests that compare a pattern with a path work on characters. Cut at the slashes, a path is a
list of names, and each test is a relation of lists: a suffix, a prefix, or a run of segments.
-/
namespace XmlBinding.Pattern

theorem segments_cons_of_ne {c : Char} (hc : c ≠ '/') {cs first : List Char}
    {others : List (List Char)} (h : segments cs = first :: others) :
    segments (c :: cs) = (c :: first) :: others := by
  rw [segments, if_neg hc, h]

theorem segments_slash_cons (cs : List Char) : segments ('/' :: cs) = [] :: segments cs := rfl

theorem segments_ne_nil (cs : List Char) : segments cs ≠ [] := by
  cases cs with
  | nil => simp [segments]
  | cons c rest =>
    unfold segments
    split
    · simp
    · split <;> simp

theorem segments_eq_splitOn (cs : List Char) : segments cs = cs.splitOn '/' := by
  induction cs with
  | nil => rfl
  | cons c rest ih =>
    rw [List.splitOn_cons_eq_if_modifyHead, ← ih]
    by_cases hc : c = '/'
    · subst hc
      rfl
    · obtain ⟨first, others, hs⟩ := List.exists_cons_of_ne_nil (segments_ne_nil rest)
      rw [segments_cons_of_ne hc hs, if_neg (by simpa using hc), hs]
      rfl

theorem intercalate_segments (cs : List Char) : ['/'].intercalate (segments cs) = cs := by
  rw [segments_eq_splitOn, List.intercalate_splitOn]

theorem segments_injective {a b : List Char} (h : segments a = segments b) : a = b := by
  rw [← intercalate_segments a, h, intercalate_segments]

theorem segments_append_slash (a b : List Char) :
    segments (a ++ '/' :: b) = segments a ++ segments b := by
  rw [segments_eq_splitOn, List.splitOn_append_cons_self, ← segments_eq_splitOn,
    ← segments_eq_splitOn]

theorem segments_of_no_slash {cs : List Char} (h : '/' ∉ cs) : segments cs = [cs] := by
  rw [segments_eq_splitOn, List.splitOn_eq_singleton h]

/-- Between two segments stands a slash. -/
theorem exists_slash_of_segments {cs : List Char} {xs ys : List (List Char)} (hx : xs ≠ [])
    (hy : ys ≠ []) (h : segments cs = xs ++ ys) :
    ∃ a b, cs = a ++ '/' :: b ∧ segments a = xs ∧ segments b = ys := by
  obtain ⟨x, xs, rfl⟩ := List.exists_cons_of_ne_nil hx
  clear hx
  induction cs generalizing x xs with
  | nil =>
    obtain ⟨-, hnil⟩ := List.cons.inj h
    exact absurd (List.append_eq_nil_iff.mp hnil.symm).2 hy
  | cons c rest ih =>
    by_cases hc : c = '/'
    · subst hc
      obtain ⟨rfl, hrest⟩ := List.cons.inj h
      cases xs with
      | nil => exact ⟨[], rest, rfl, rfl, hrest⟩
      | cons x' xs =>
        obtain ⟨a, b, rfl, ha, hb⟩ := ih x' xs hrest
        exact ⟨'/' :: a, b, rfl, by rw [segments_slash_cons, ha], hb⟩
    · obtain ⟨first, others, hs⟩ := List.exists_cons_of_ne_nil (segments_ne_nil rest)
      rw [segments_cons_of_ne hc hs] at h
      obtain ⟨rfl, hothers⟩ := List.cons.inj h
      obtain ⟨a, b, rfl, ha, hb⟩ := ih first xs (by rw [hs, hothers]; rfl)
      exact ⟨c :: a, b, rfl, segments_cons_of_ne hc ha, hb⟩

/-! ### The tests on paths -/

/-- A path ends in another one at a slash if its segments do. -/
theorem endsAtSegment_iff {suffix path : List Char} :
    endsAtSegment suffix path = true ↔ segments suffix <:+ segments path := by
  simp only [endsAtSegment, Bool.or_eq_true, beq_iff_eq, List.isSuffixOf_iff_suffix]
  constructor
  · rintro (rfl | ⟨front, rfl⟩)
    · exact List.suffix_refl _
    · rw [segments_append_slash]
      exact List.suffix_append ..
  · rintro ⟨front, h⟩
    cases front with
    | nil => exact Or.inl (segments_injective h).symm
    | cons x xs =>
      obtain ⟨a, b, rfl, -, hb⟩ := exists_slash_of_segments (List.cons_ne_nil _ _)
        (segments_ne_nil suffix) h.symm
      rw [segments_injective hb]
      exact Or.inr ⟨a, rfl⟩

/-- A path leads through another one if its segments go on behind those of the other. -/
theorem slash_prefix_iff {inner path : List Char} :
    inner ++ ['/'] <+: path ↔ ∃ behind, behind ≠ [] ∧ segments path = segments inner ++ behind := by
  constructor
  · rintro ⟨rest, rfl⟩
    rw [List.append_assoc]
    exact ⟨segments rest, segments_ne_nil rest, segments_append_slash inner rest⟩
  · rintro ⟨behind, hne, h⟩
    obtain ⟨a, b, rfl, ha, -⟩ := exists_slash_of_segments (segments_ne_nil inner) hne h
    rw [segments_injective ha]
    exact ⟨b, by simp⟩

theorem occursIn_iff {part cs : List Char} : occursIn part cs = true ↔ part <:+: cs := by
  induction cs with
  | nil => simp [occursIn]
  | cons c rest ih =>
    rw [occursIn, Bool.or_eq_true, ih, List.isPrefixOf_iff_prefix, List.infix_cons_iff]

/-- The segments of a path run through another one if they stand in it one behind the other. -/
theorem runsThrough_iff {inner path : List Char} :
    runsThrough inner path = true ↔ segments inner <:+: segments path := by
  simp only [runsThrough, Bool.or_eq_true, endsAtSegment_iff, List.isPrefixOf_iff_prefix,
    slash_prefix_iff, occursIn_iff]
  constructor
  · rintro ((h | ⟨behind, -, h⟩) | ⟨front, back, rfl⟩)
    · exact h.isInfix
    · rw [h]
      exact (List.prefix_append ..).isInfix
    · refine ⟨segments front, segments back, ?_⟩
      simp [segments_append_slash]
  · rintro ⟨front, back, h⟩
    rw [List.append_assoc] at h
    cases front with
    | nil =>
      cases back with
      | nil =>
        rw [List.nil_append, List.append_nil] at h
        rw [h]
        exact Or.inl (Or.inl (List.suffix_refl _))
      | cons y ys => exact Or.inl (Or.inr ⟨y :: ys, List.cons_ne_nil _ _, h.symm⟩)
    | cons x xs =>
      obtain ⟨a, b, rfl, -, hb⟩ := exists_slash_of_segments (List.cons_ne_nil _ _)
        (List.append_ne_nil_of_left_ne_nil (segments_ne_nil inner) back) h.symm
      cases back with
      | nil =>
        rw [List.append_nil] at hb
        refine Or.inl (Or.inl ⟨segments a, ?_⟩)
        rw [segments_append_slash, hb]
      | cons y ys =>
        obtain ⟨c, d, rfl, hc, -⟩ := exists_slash_of_segments (segments_ne_nil inner)
          (List.cons_ne_nil _ _) hb
        rw [segments_injective hc]
        exact Or.inr ⟨a, d, by simp⟩

/-! ### The enclosing element -/

theorem parent?_append_slash (a : List Char) {b : List Char} (hb : '/' ∉ b) :
    parent? (a ++ '/' :: b) = some a := by
  have hdrop : (b.reverse ++ '/' :: a.reverse).dropWhile (· ≠ '/') = '/' :: a.reverse := by
    rw [List.dropWhile_append_of_pos]
    · rfl
    · intro c hc
      have hne : c ≠ '/' := fun h => hb (by rwa [← h, ← List.mem_reverse])
      simpa using hne
  have hreverse : (a ++ '/' :: b).reverse = b.reverse ++ '/' :: a.reverse := by simp
  unfold parent?
  rw [hreverse, hdrop]
  exact congrArg some a.reverse_reverse

theorem parent?_of_no_slash {cs : List Char} (h : '/' ∉ cs) : parent? cs = none := by
  have hdrop : cs.reverse.dropWhile (· ≠ '/') = [] := by
    rw [List.dropWhile_eq_nil_iff]
    intro c hc
    have hne : c ≠ '/' := fun hslash => h (by rwa [← hslash, ← List.mem_reverse])
    simpa using hne
  unfold parent?
  rw [hdrop]

/-- A path without a slash is one segment, and every other path ends in one behind a slash. -/
theorem no_slash_or_last (cs : List Char) :
    '/' ∉ cs ∨ ∃ a b, cs = a ++ '/' :: b ∧ '/' ∉ b := by
  induction cs with
  | nil => exact Or.inl (by simp)
  | cons c rest ih =>
    rcases ih with h | ⟨a, b, rfl, hb⟩
    · by_cases hc : c = '/'
      · subst hc
        exact Or.inr ⟨[], rest, rfl, h⟩
      · refine Or.inl fun hmem => ?_
        rcases List.mem_cons.mp hmem with heq | hrest
        · exact hc heq.symm
        · exact h hrest
    · exact Or.inr ⟨c :: a, b, rfl, hb⟩

theorem segments_of_parent? {path parent : List Char} (h : parent? path = some parent) :
    segments parent = (segments path).dropLast := by
  rcases no_slash_or_last path with hp | ⟨a, b, rfl, hb⟩
  · rw [parent?_of_no_slash hp] at h
    cases h
  · rw [parent?_append_slash a hb] at h
    obtain rfl := Option.some.inj h
    rw [segments_append_slash, segments_of_no_slash hb, List.dropLast_concat]

theorem dropLast_of_no_parent {path : List Char} (h : parent? path = none) :
    (segments path).dropLast = [] := by
  rcases no_slash_or_last path with hp | ⟨a, b, rfl, hb⟩
  · rw [segments_of_no_slash hp]
    rfl
  · rw [parent?_append_slash a hb] at h
    cases h

end XmlBinding.Pattern
